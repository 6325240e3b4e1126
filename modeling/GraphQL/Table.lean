/-! # Tables

A `Table` holds one value under a key. Inserting again hides the value that was there; `erase`
removes it.

* `get?_insert` and `get?_erase` say what each operation does to lookups. -/

namespace GraphQL

set_option autoImplicit false

/-- One value under each key, the newest entry first. -/
structure Table (κ α : Type) where
  entries : List (κ × α) := []

namespace Table

variable {κ α : Type} [DecidableEq κ]

def get? (t : Table κ α) (key : κ) : Option α := t.entries.lookup key

def contains (t : Table κ α) (key : κ) : Bool := (t.get? key).isSome

/-- Files a value under a key, in place of the one that was there. -/
def insert (key : κ) (value : α) (t : Table κ α) : Table κ α := ⟨(key, value) :: t.entries⟩

def erase (key : κ) (t : Table κ α) : Table κ α :=
  ⟨t.entries.filter fun entry => decide (entry.1 ≠ key)⟩

theorem get?_empty (key : κ) : get? (⟨[]⟩ : Table κ α) key = none := rfl

theorem get?_cons (k : κ) (value : α) (rest : List (κ × α)) (key : κ) :
    get? ⟨(k, value) :: rest⟩ key = if key = k then some value else get? ⟨rest⟩ key := by
  by_cases h : key = k
  · simp [get?, h]
  · simp [get?, List.lookup_cons, h, beq_false_of_ne h]

theorem get?_insert (t : Table κ α) (key : κ) (value : α) (k : κ) :
    (t.insert key value).get? k = if k = key then some value else t.get? k :=
  get?_cons key value t.entries k

theorem get?_erase (t : Table κ α) (key k : κ) :
    (t.erase key).get? k = if k = key then none else t.get? k := by
  obtain ⟨entries⟩ := t
  simp only [erase]
  induction entries with
  | nil => simp [get?_empty]
  | cons entry rest ih =>
    obtain ⟨e, value⟩ := entry
    by_cases he : e = key
    · by_cases hk : k = key <;> simp_all [get?_cons]
    · by_cases hk : k = e <;> simp_all [get?_cons]

theorem mem_of_get? {t : Table κ α} {key : κ} {value : α} (h : t.get? key = some value) :
    (key, value) ∈ t.entries := by
  obtain ⟨entries⟩ := t
  induction entries with
  | nil => simp [get?] at h
  | cons entry rest ih =>
    obtain ⟨k, v⟩ := entry
    rw [get?_cons] at h
    by_cases hk : key = k <;> simp_all

end Table

end GraphQL
