import GraphQL.Recovery.Parser

/-! # Passing over tokens

All recovery goes through one loop, `Parser.search`. `Passes` says what it has established about
the tokens it passed over: the item parses at none of them and the recovery point is recognized at
none of them. Each outcome of a search is told by it. -/

namespace GraphQL.Recovery

set_option autoImplicit false

variable {τ α : Type}

/-- The item fails and the recovery point is not recognized at a cursor. -/
def Parser.Misses (item : Parser τ α) (itemRecovery recovery : Recognizer τ) (c : Cursor τ) : Prop :=
  (∃ e, item.parse c itemRecovery = .error e) ∧ recovery c = false

/-- The tokens from `c` up to `stop` are passed over, and are ones that the search misses. -/
structure Parser.Passes (item : Parser τ α) (itemRecovery recovery : Recognizer τ) (c : Cursor τ)
    (stop : Nat) (passed : List Nat) : Prop where
  le : c.position ≤ stop
  passed_eq : passed = List.range' c.position (stop - c.position)
  inside : ∀ i ∈ passed, i < c.tokens.size
  misses : ∀ i ∈ passed, item.Misses itemRecovery recovery (c.moveTo i)

namespace Parser

variable {item : Parser τ α} {itemRecovery recovery : Recognizer τ} {c : Cursor τ} {stop : Nat}
  {passed : List Nat}

theorem Passes.none (item : Parser τ α) (itemRecovery recovery : Recognizer τ) (c : Cursor τ) :
    item.Passes itemRecovery recovery c c.position [] where
  le := Nat.le_refl _
  passed_eq := by rw [Nat.sub_self, List.range'_zero]
  inside := by simp
  misses := by simp

/-- One more token in front of those that are passed over. -/
theorem Passes.cons (here : c.position < c.tokens.size) (miss : item.Misses itemRecovery recovery c)
    (rest : item.Passes itemRecovery recovery c.advance stop passed) :
    item.Passes itemRecovery recovery c stop (c.position :: passed) where
  le := Nat.le_of_succ_le rest.le
  passed_eq := by
    have later : c.position + 1 ≤ stop := rest.le
    have length : stop - c.position = (stop - (c.position + 1)) + 1 := by omega
    rw [length, List.range'_succ, rest.passed_eq]
    rfl
  inside := List.forall_mem_cons.2 ⟨here, rest.inside⟩
  misses := List.forall_mem_cons.2 ⟨miss, rest.misses⟩

/-- How a search can end, and what it has established by then. -/
theorem search_outcome (item : Parser τ α) (itemRecovery recovery : Recognizer τ) (c : Cursor τ) :
    match item.search itemRecovery recovery c with
    | .found reading passed => ∃ stop, item.Passes itemRecovery recovery c stop passed ∧
        item.parse (c.moveTo stop) itemRecovery = .ok reading
    | .recovered stop passed => item.Passes itemRecovery recovery c stop passed ∧
        (∃ e, item.parse (c.moveTo stop) itemRecovery = .error e) ∧ recovery (c.moveTo stop) = true
    | .exhausted => ∃ stop passed, item.Passes itemRecovery recovery c stop passed ∧
        c.tokens.size ≤ stop ∧ item.Misses itemRecovery recovery (c.moveTo stop) := by
  induction c using search.induct item itemRecovery recovery with
  | case1 c reading hr =>
    rw [search, hr]
    exact ⟨c.position, .none .., hr⟩
  | case2 c e he hc =>
    rw [search, he]
    simp only [hc, if_true]
    exact ⟨.none .., ⟨e, he⟩, hc⟩
  | case3 c e he hc inside ih =>
    have miss : item.Misses itemRecovery recovery c := ⟨⟨e, he⟩, Bool.eq_false_iff.2 hc⟩
    rw [search, he]
    simp only [hc, inside, Bool.false_eq_true, if_false, if_true]
    cases hs : item.search itemRecovery recovery c.advance with
    | found reading passed =>
      rw [hs] at ih
      obtain ⟨stop, passes, hr⟩ := ih
      exact ⟨stop, passes.cons inside miss, hr⟩
    | recovered stop passed =>
      rw [hs] at ih
      exact ⟨ih.1.cons inside miss, ih.2⟩
    | exhausted =>
      rw [hs] at ih
      obtain ⟨stop, passed, passes, outside, missed⟩ := ih
      exact ⟨stop, c.position :: passed, passes.cons inside miss, outside, missed⟩
  | case4 c e he hc outside =>
    rw [search, he]
    simp only [hc, outside, Bool.false_eq_true, if_false]
    exact ⟨c.position, [], .none .., Nat.le_of_not_lt outside, ⟨e, he⟩, Bool.eq_false_iff.2 hc⟩

theorem passes_of_found {reading : Reading α}
    (h : item.search itemRecovery recovery c = .found reading passed) :
    ∃ stop, item.Passes itemRecovery recovery c stop passed ∧
      item.parse (c.moveTo stop) itemRecovery = .ok reading := by
  have outcome := search_outcome item itemRecovery recovery c
  rw [h] at outcome
  exact outcome

theorem passes_of_recovered (h : item.search itemRecovery recovery c = .recovered stop passed) :
    item.Passes itemRecovery recovery c stop passed ∧
      (∃ e, item.parse (c.moveTo stop) itemRecovery = .error e) ∧
      recovery (c.moveTo stop) = true := by
  have outcome := search_outcome item itemRecovery recovery c
  rw [h] at outcome
  exact outcome

/-- A search comes to the end of the input only where the recovery point is not recognized there. -/
theorem not_exhausted (ends : ∀ c : Cursor τ, c.tokens.size ≤ c.position → recovery c = true) :
    item.search itemRecovery recovery c ≠ .exhausted := by
  intro h
  have outcome := search_outcome item itemRecovery recovery c
  rw [h] at outcome
  obtain ⟨stop, passed, -, outside, -, missed⟩ := outcome
  rw [ends (c.moveTo stop) outside] at missed
  cases missed

end Parser

end GraphQL.Recovery
