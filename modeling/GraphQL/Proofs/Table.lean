import GraphQL.MultiMap
import GraphQL.Table

/-! # Lookups behind changes

What tables and multimaps hold behind `MultiMap.insertNew` and `MultiMap.eraseValue`. Erasing a
value is told for multimaps in which no key stands twice; every operation keeps them so. None leaves
a key without values, `MultiMap.Filled`. -/

namespace GraphQL

set_option autoImplicit false

/-- If all elements that are mapped to something are mapped to the same, that is what is found. -/
theorem findSome_eq {α β : Type} {f : α → Option β} {value : Option β} {list : List α} {a : α}
    (ha : a ∈ list) (here : f a = value) (same : ∀ b ∈ list, f b = none ∨ f b = value) :
    list.findSome? f = value := by
  induction list with
  | nil => cases ha
  | cons b list ih =>
    rw [List.forall_mem_cons] at same
    rw [List.findSome?_cons]
    rcases same.1 with hb | hb
    · rw [hb]
      rcases List.mem_cons.1 ha with rfl | ha
      · rw [← here, hb]
        refine List.findSome?_eq_none_iff.2 fun c hc => ?_
        rcases same.2 c hc with h | h
        · exact h
        · rw [h, ← here, hb]
      · exact ih ha same.2
    · rw [hb]
      cases hv : value with
      | some v => rfl
      | none =>
        refine List.findSome?_eq_none_iff.2 fun c hc => ?_
        rcases same.2 c hc with h | h
        · exact h
        · rw [h, hv]

namespace MultiMap

variable {κ α : Type} [DecidableEq κ]

theorem get_insertNew [BEq α] (m : MultiMap κ α) (key : κ) (value : α) (k : κ) :
    (m.insertNew key value).get k =
      if k = key ∧ (m.get key).contains value = false then m.get k ++ [value] else m.get k := by
  unfold insertNew
  by_cases h : (m.get key).contains value = true
  · rw [if_pos h, if_neg]
    rw [h]
    exact fun hk => Bool.noConfusion hk.2
  · rw [if_neg h, get_insert]
    simp [h]

theorem mem_get_insertNew [BEq α] [LawfulBEq α] (m : MultiMap κ α) (key : κ) (value : α)
    (k : κ) (v : α) :
    v ∈ (m.insertNew key value).get k ↔ v ∈ m.get k ∨ k = key ∧ v = value := by
  rw [get_insertNew]
  by_cases hk : k = key
  · subst hk
    by_cases h : (m.get k).contains value = true
    · have : value ∈ m.get k := by simpa using h
      simp only [h, Bool.true_eq_false, and_false, if_false, true_and]
      exact ⟨Or.inl, fun hv => hv.elim id fun hv => hv ▸ this⟩
    · have : value ∉ m.get k := by simpa using h
      simp [this]
  · simp [hk]

theorem lookup_of_not_mem_keys {entries : List (κ × List α)} {key : κ}
    (h : key ∉ entries.map Prod.fst) : entries.lookup key = none := by
  rw [List.lookup_eq_none_iff]
  intro entry he
  rw [bne_iff_ne]
  rintro rfl
  exact h (List.mem_map_of_mem he)

variable {m : MultiMap κ α}

theorem keys_insert_nodup (h : m.keys.Nodup) (key : κ) (value : α) :
    (m.insert key value).keys.Nodup := by
  rw [keys_insert]
  split
  · exact h
  · next hk => exact List.nodup_append.2 ⟨h, by simp, fun a ha b hb hab =>
      hk (List.mem_singleton.1 hb ▸ hab ▸ ha)⟩

variable [BEq α]

theorem keys_insertNew_nodup (h : m.keys.Nodup) (key : κ) (value : α) :
    (m.insertNew key value).keys.Nodup := by
  unfold insertNew
  split
  · exact h
  · exact keys_insert_nodup h key value

omit [DecidableEq κ] in
theorem keys_eraseValue_sublist (m : MultiMap κ α) (value : α) :
    (m.eraseValue value).keys.Sublist m.keys := by
  unfold keys eraseValue
  refine (List.filter_sublist.map Prod.fst).trans ?_
  rw [List.map_map]
  exact List.Sublist.refl _

/-- Every key has a value. -/
def Filled (m : MultiMap κ α) : Prop := [] ∉ m.entries.map Prod.snd

omit [BEq α] in
theorem Filled.insert (h : m.Filled) (key : κ) (value : α) : (m.insert key value).Filled := by
  obtain ⟨entries⟩ := m
  unfold Filled MultiMap.insert at *
  induction entries with
  | nil => simp [insertInto]
  | cons entry rest ih =>
    obtain ⟨k, values⟩ := entry
    simp only [List.map_cons, List.mem_cons, not_or] at h
    have own : ¬[] = values ++ [value] := (List.append_ne_nil_of_right_ne_nil values
      (List.cons_ne_nil value [])).symm
    by_cases hk : k = key
    · simp only [insertInto, if_pos hk, List.map_cons, List.mem_cons, not_or]
      exact ⟨own, h.2⟩
    · simp only [insertInto, if_neg hk, List.map_cons, List.mem_cons, not_or]
      exact ⟨h.1, ih h.2⟩

theorem Filled.insertNew (h : m.Filled) (key : κ) (value : α) : (m.insertNew key value).Filled := by
  unfold MultiMap.insertNew
  split
  · exact h
  · exact h.insert key value

omit [DecidableEq κ] in
/-- Keys that lose their last value go with it. -/
theorem eraseValue_filled (m : MultiMap κ α) (value : α) : (m.eraseValue value).Filled := by
  intro h
  obtain ⟨⟨k, values⟩, he, same⟩ := List.mem_map.1 h
  have some := (List.mem_filter.1 he).2
  rw [show values = [] from same] at some
  cases some

/-- Where no key stands twice, erasing a value takes it out of every list. -/
theorem get_eraseValue (h : m.keys.Nodup) (value : α) (key : κ) :
    (m.eraseValue value).get key = (m.get key).filter (· != value) := by
  obtain ⟨entries⟩ := m
  unfold keys at h
  simp only [get, eraseValue]
  induction entries with
  | nil => rfl
  | cons entry rest ih =>
    obtain ⟨k, values⟩ := entry
    rw [List.map_cons, List.nodup_cons] at h
    have ih := ih h.2
    rw [List.map_cons, List.filter_cons, List.lookup_cons]
    by_cases hk : key = k
    · subst hk
      by_cases he : values.filter (· != value) = []
      · have gone : rest.lookup key = none := lookup_of_not_mem_keys h.1
        rw [gone, Option.getD_none, List.filter_nil] at ih
        simp [he, ih]
      · simp [he]
    · by_cases he : values.filter (· != value) = []
      · simpa [he, beq_false_of_ne hk] using ih
      · simpa [he, List.lookup_cons, beq_false_of_ne hk] using ih

end MultiMap

end GraphQL
