/-! # Multimaps

A `MultiMap` holds every value that was inserted under a key, in the order of insertion; its keys
stand in the order in which they were first used.

* `get_insert` and `keys_insert` say what an insertion adds,
* `insertNew` leaves out a value that is there already,
* `eraseValue` removes a value from under every key, and keys that are left without values. -/

namespace GraphQL

set_option autoImplicit false

/-- Every value under each key, both in the order of insertion. -/
structure MultiMap (κ α : Type) where
  entries : List (κ × List α) := []

namespace MultiMap

variable {κ α : Type} [DecidableEq κ]

/-- Adds a value behind the others under its key; a new key goes last. -/
def insertInto (key : κ) (value : α) : List (κ × List α) → List (κ × List α)
  | [] => [(key, [value])]
  | (k, values) :: rest =>
    if k = key then (k, values ++ [value]) :: rest else (k, values) :: insertInto key value rest

def insert (key : κ) (value : α) (m : MultiMap κ α) : MultiMap κ α :=
  ⟨insertInto key value m.entries⟩

def get (m : MultiMap κ α) (key : κ) : List α := (m.entries.lookup key).getD []

def first? (m : MultiMap κ α) (key : κ) : Option α := (m.get key).head?

def contains (m : MultiMap κ α) (key : κ) : Bool := (m.entries.lookup key).isSome

def keys (m : MultiMap κ α) : List κ := m.entries.map Prod.fst

/-- Every value, grouped by key. -/
def values (m : MultiMap κ α) : List α := m.entries.flatMap Prod.snd

/-- The number of keys. -/
def size (m : MultiMap κ α) : Nat := m.entries.length

def insertNew [BEq α] (key : κ) (value : α) (m : MultiMap κ α) : MultiMap κ α :=
  if (m.get key).contains value then m else m.insert key value

/-- Removes a value from under every key, and the keys that have no value left. -/
def eraseValue [BEq α] (value : α) (m : MultiMap κ α) : MultiMap κ α :=
  ⟨(m.entries.map fun (key, values) => (key, values.filter (· != value))).filter
    fun (_, values) => !values.isEmpty⟩

theorem get_empty (key : κ) : ({} : MultiMap κ α).get key = [] := rfl

theorem get_insert (m : MultiMap κ α) (key : κ) (value : α) (k : κ) :
    (m.insert key value).get k = if k = key then m.get k ++ [value] else m.get k := by
  obtain ⟨entries⟩ := m
  simp only [get, insert]
  induction entries with
  | nil =>
    by_cases h : k = key
    · simp [insertInto, h]
    · simp [insertInto, List.lookup_cons, h, beq_false_of_ne h]
  | cons entry rest ih =>
    obtain ⟨e, values⟩ := entry
    by_cases hk : k = e
    · subst hk
      by_cases h : k = key <;> simp [insertInto, h]
    · by_cases he : e = key
      · subst he
        simp [insertInto, List.lookup_cons, hk, beq_false_of_ne hk]
      · simpa [insertInto, he, List.lookup_cons, beq_false_of_ne hk] using ih

theorem keys_insert (m : MultiMap κ α) (key : κ) (value : α) :
    (m.insert key value).keys = if key ∈ m.keys then m.keys else m.keys ++ [key] := by
  obtain ⟨entries⟩ := m
  simp only [keys, insert]
  induction entries with
  | nil => simp [insertInto]
  | cons entry rest ih =>
    obtain ⟨e, values⟩ := entry
    by_cases he : e = key
    · simp [insertInto, he]
    · by_cases hm : key ∈ rest.map Prod.fst <;> simp_all [insertInto, Ne.symm he]

end MultiMap

end GraphQL
