import Mathlib.Data.List.Perm.Basic
import GraphQL.Proofs.Database.Index
import GraphQL.Proofs.Table

/-! # Tables that are filed from lists

What tables hold that a list was filed in, one after the other.

* `MultiMap.lists_fileAll`: a table of names gives under each name what the list has under it, and
  altogether what has a name, grouped by name in the order in which the names first appear,
* `LayeredBindings.members_bindMembers`: what binding members adds to each layer,
* `LayeredBindings.Coherent`: members by name are those members of the type that have the name. -/

namespace GraphQL

set_option autoImplicit false

variable {α : Type}

theorem eraseDups_concat (names : List Text) (n : Text) :
    (names ++ [n]).eraseDups =
      if n ∈ names then names.eraseDups else names.eraseDups ++ [n] := by
  rw [List.eraseDups_append]
  by_cases h : n ∈ names <;> simp [List.removeAll, List.eraseDups_cons, h]

/-- Where all elements but one, which is there once, are mapped to nothing. -/
theorem flatMap_of_nodup {κ : Type} {keys : List κ} (distinct : keys.Nodup) {f : κ → List α}
    {key : κ} (h : key ∈ keys) (others : ∀ k ≠ key, f k = []) : keys.flatMap f = f key := by
  induction keys with
  | nil => cases h
  | cons k keys ih =>
    rw [List.nodup_cons] at distinct
    rw [List.flatMap_cons]
    rcases List.mem_cons.1 h with rfl | h
    · rw [List.flatMap_eq_nil_iff.2 fun j hj => others j fun same => distinct.1 (same ▸ hj),
        List.append_nil]
    · rw [others k fun same => distinct.1 (same ▸ h), List.nil_append, ih distinct.2 h]

/-! ## Lists by name -/

section

variable (name : α → Option Text) (list : List α)

/-- Those of a list that have a name, grouped by name; each name is where it first appears. -/
def grouped : List α :=
  (list.filterMap name).eraseDups.flatMap fun n => list.filter fun a => name a == some n

/-- Files each of a list under its name, if it has one. -/
def MultiMap.fileAll (m : MultiMap Text α) : MultiMap Text α :=
  list.foldl (fun m a => fileUnder (name a) a m) m

/-- A table by name lists a list: under each name what has it, in order, and altogether what has
any, grouped by name. -/
structure MultiMap.Lists (m : MultiMap Text α) : Prop where
  get : ∀ n, m.get n = list.filter fun a => name a == some n
  values : m.values = grouped name list
  /-- All that has a name is there as often as in the list, and nothing else -/
  complete : m.values.Perm (list.filter fun a => (name a).isSome)
  /-- By name it is the part of all values that has the name -/
  part : ∀ n, m.get n = m.values.filter fun a => name a == some n

end

namespace MultiMap

variable {κ : Type} [DecidableEq κ] {m : MultiMap κ α}

/-! ## Values by key -/

theorem get_of_mem (distinct : m.keys.Nodup) {key : κ} {values : List α}
    (h : (key, values) ∈ m.entries) : m.get key = values := by
  obtain ⟨entries⟩ := m
  unfold keys at distinct
  unfold get
  induction entries with
  | nil => cases h
  | cons entry rest ih =>
    obtain ⟨k, first⟩ := entry
    rw [List.map_cons, List.nodup_cons] at distinct
    rcases List.mem_cons.1 h with same | later
    · cases same
      simp
    · have other : key ≠ k := by
        rintro rfl
        exact distinct.1 (List.mem_map.2 ⟨_, later, rfl⟩)
      simpa only [List.lookup_cons, beq_false_of_ne other] using ih distinct.2 later

/-- Where no key stands twice, the values are those of the keys in turn. -/
theorem values_eq_flatMap_get (distinct : m.keys.Nodup) : m.values = m.keys.flatMap m.get := by
  unfold values keys
  rw [List.flatMap_map]
  exact List.flatMap_congr fun entry h => (get_of_mem distinct h).symm

theorem values_insert_perm (key : κ) (value : α) :
    (m.insert key value).values.Perm (m.values ++ [value]) := by
  obtain ⟨entries⟩ := m
  unfold insert values
  induction entries with
  | nil => exact .refl _
  | cons entry rest ih =>
    obtain ⟨k, values⟩ := entry
    unfold insertInto
    split
    · rw [List.flatMap_cons, List.flatMap_cons, List.append_assoc, List.append_assoc]
      exact List.perm_append_comm.append_left values
    · rw [List.flatMap_cons, List.flatMap_cons, List.append_assoc]
      exact ih.append_left values

/-! ## Filing a list -/

theorem fileAll_append (name : α → Option Text) (list rest : List α) (m : MultiMap Text α) :
    fileAll name (list ++ rest) m = fileAll name rest (fileAll name list m) :=
  List.foldl_append

theorem fileAll_concat (name : α → Option Text) (list : List α) (a : α) (m : MultiMap Text α) :
    fileAll name (list ++ [a]) m = fileUnder (name a) a (fileAll name list m) :=
  fileAll_append name list [a] m

theorem get_fileAll (name : α → Option Text) (list : List α) (n : Text) :
    (fileAll name list {}).get n = list.filter fun a => name a == some n := by
  induction list using List.reverseRecOn with
  | nil => rfl
  | append_singleton list a ih =>
    rw [fileAll_concat, get_fileUnder, ih, List.filter_append, List.filter_singleton]
    by_cases own : name a = some n
    · simp [own]
    · simp [own, beq_false_of_ne own]

theorem keys_fileAll (name : α → Option Text) (list : List α) :
    (fileAll name list {}).keys = (list.filterMap name).eraseDups := by
  induction list using List.reverseRecOn with
  | nil => rfl
  | append_singleton list a ih =>
    rw [fileAll_concat, List.filterMap_append]
    cases own : name a with
    | none =>
      rw [List.filterMap_cons_none own, List.filterMap_nil, List.append_nil]
      exact ih
    | some n =>
      rw [List.filterMap_cons_some own, List.filterMap_nil, eraseDups_concat, ← ih]
      refine (keys_insert (fileAll name list {}) n a).trans ?_
      simp only [ih, List.mem_eraseDups]

theorem keys_fileAll_nodup (name : α → Option Text) (list : List α) :
    (fileAll name list {}).keys.Nodup := by
  induction list using List.reverseRecOn with
  | nil => exact List.nodup_nil
  | append_singleton list a ih =>
    rw [fileAll_concat]
    cases name a with
    | none => exact ih
    | some n => exact keys_insert_nodup ih n a

theorem values_fileAll (name : α → Option Text) (list : List α) :
    (fileAll name list {}).values = grouped name list := by
  rw [values_eq_flatMap_get (keys_fileAll_nodup name list), keys_fileAll, grouped]
  exact List.flatMap_congr fun n _ => get_fileAll name list n

theorem filter_values_fileAll (name : α → Option Text) (list : List α) (n : Text) :
    (fileAll name list {}).values.filter (fun a => name a == some n) =
      (fileAll name list {}).get n := by
  have group (k : Text) : (fileAll name list {}).get k =
      list.filter fun a => name a == some k := get_fileAll name list k
  -- under another name there is nothing that has this one
  have others (k : Text) (other : k ≠ n) :
      ((fileAll name list {}).get k).filter (fun a => name a == some n) = [] := by
    rw [group, List.filter_filter, List.filter_eq_nil_iff]
    intro a _ both
    simp only [Bool.and_eq_true, beq_iff_eq] at both
    exact other (Option.some.inj (both.2.symm.trans both.1))
  have own : ((fileAll name list {}).get n).filter (fun a => name a == some n) =
      (fileAll name list {}).get n := by
    rw [group, List.filter_filter]
    simp only [Bool.and_self]
  have distinct := keys_fileAll_nodup name list
  rw [values_eq_flatMap_get distinct, List.filter_flatMap]
  by_cases known : n ∈ (fileAll name list {}).keys
  · rw [flatMap_of_nodup distinct known others, own]
  · have absent : (fileAll name list {}).get n = [] := by
      rw [get, lookup_of_not_mem_keys known]
      rfl
    rw [absent, List.flatMap_eq_nil_iff]
    exact fun k hk => others k fun same => known (same ▸ hk)

theorem values_fileAll_perm (name : α → Option Text) (list : List α) :
    (fileAll name list {}).values.Perm (list.filter fun a => (name a).isSome) := by
  induction list using List.reverseRecOn with
  | nil => exact .refl _
  | append_singleton list a ih =>
    rw [fileAll_concat, List.filter_append, List.filter_singleton]
    cases name a with
    | none => simpa [fileUnder] using ih
    | some n => exact (values_insert_perm n a).trans (ih.append_right [a])

/-- A table that a list is filed in lists it. -/
theorem lists_fileAll (name : α → Option Text) (list : List α) :
    (fileAll name list {}).Lists name list where
  get := get_fileAll name list
  values := values_fileAll name list
  complete := values_fileAll_perm name list
  part n := (filter_values_fileAll name list n).symm

end MultiMap

/-! ## Members of types -/

/-- By name there are those members of a type that have the name, in the same order. -/
def Bindings.Coherent (name : α → Text) (b : Bindings α) : Prop :=
  ∀ type n, b.membersByName type n = (b.members type).filter fun member => name member == n

theorem Bindings.Coherent.insert {name : α → Text} {b : Bindings α} (h : b.Coherent name)
    (type : Text) (member : α) : (b.insert type (name member) member).Coherent name := by
  intro t n
  rw [membersByName_insert, members_insert, h t n]
  by_cases own : t = type
  · rw [if_pos own, List.filter_append, List.filter_singleton]
    by_cases same : n = name member
    · simp [own, same]
    · simp [same, beq_false_of_ne (Ne.symm same)]
  · rw [if_neg own, if_neg fun both => own both.1]

namespace LayeredBindings

def layer (b : LayeredBindings α) : Layer → Bindings α
  | .definition => b.definitions
  | .extension => b.extensions

theorem layer_insert (b : LayeredBindings α) (into : Layer) (type name : Text) (member : α)
    (l : Layer) : (b.insert into type name member).layer l =
      if l = into then (b.layer l).insert type name member else b.layer l := by
  cases into <;> cases l <;> rfl

/-- Both layers hold the same members by type and by name. -/
def Coherent (name : α → Text) (b : LayeredBindings α) : Prop := ∀ l, (b.layer l).Coherent name

variable {name : α → Text}

theorem coherent_empty : ({} : LayeredBindings α).Coherent name := by
  intro l type n
  cases l <;> rfl

theorem Coherent.insert {b : LayeredBindings α} (h : b.Coherent name) (into : Layer) (type : Text)
    (member : α) : (b.insert into type (name member) member).Coherent name := by
  intro l
  rw [layer_insert]
  split
  · exact (h l).insert type member
  · exact h l

/-- The members by name are a part of the members of the type. -/
theorem Coherent.membersByName {b : LayeredBindings α} (h : b.Coherent name) (type n : Text) :
    b.membersByName type n = (b.members type).filter fun member => name member == n := by
  rw [LayeredBindings.membersByName, members, List.filter_append]
  exact congr (congrArg _ (h .definition type n)) (h .extension type n)

variable {b : LayeredBindings (Located α)}

theorem Coherent.bindMembers (h : b.Coherent fun member => name member.value) (into : Layer)
    (revision : Nat) (type : Text) (members : List α) :
    (bindMembers into revision type name members b).Coherent fun member => name member.value := by
  unfold GraphQL.bindMembers
  induction members generalizing b with
  | nil => exact h
  | cons member members ih => exact ih (h.insert into type ⟨revision, member⟩)

/-- Members that are bound come last among those of their type, in one layer. -/
theorem members_bindMembers (into : Layer) (revision : Nat) (type : Text) (name : α → Text)
    (members : List α) (b : LayeredBindings (Located α)) (l : Layer) (t : Text) :
    ((bindMembers into revision type name members b).layer l).members t =
      (b.layer l).members t ++
        if l = into ∧ t = type then members.map (Located.mk revision) else [] := by
  unfold GraphQL.bindMembers
  induction members generalizing b with
  | nil => simp
  | cons member members ih =>
    rw [List.foldl_cons, ih, layer_insert]
    by_cases here : l = into
    · rw [if_pos here, Bindings.members_insert]
      by_cases own : t = type <;> simp [here, own]
    · simp [here]

end LayeredBindings

end GraphQL
