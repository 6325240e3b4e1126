import GraphQL.MultiMap
import GraphQL.Table

/-! # Dependency graphs

A `Graph` records what its keys produce and consume. Each key produces at most one value and
consumes any number; a value may have several producers. There is an edge from a key to every
consumer of what it produces.

* `Graph.invalidate` walks the edges from a key: what it returns holds the key and all that depends
  on it, directly or through other keys,
* `Graph.remove` forgets a key. -/

namespace GraphQL

set_option autoImplicit false

/-- What keys of type `κ` produce and consume. -/
structure Graph (κ δ : Type) where
  products : Table κ δ := {}
  consumers : MultiMap δ κ := {}

namespace Graph

variable {κ δ : Type} [DecidableEq κ] [DecidableEq δ]

/-- Records that a key produces a value, in place of what it produced before. -/
def produce (key : κ) (value : δ) (g : Graph κ δ) : Graph κ δ :=
  { g with products := g.products.insert key value }

def consume (key : κ) (value : δ) (g : Graph κ δ) : Graph κ δ :=
  { g with consumers := g.consumers.insertNew value key }

def produces (g : Graph κ δ) (key : κ) : Bool := g.products.contains key

def consumersOf (g : Graph κ δ) (value : δ) : List κ := g.consumers.get value

def dependents (g : Graph κ δ) (key : κ) : List κ :=
  match g.products.get? key with
  | none => []
  | some value => g.consumersOf value

/-- The producing entries whose keys are not visited yet. -/
def unvisited (g : Graph κ δ) (visited : List κ) : List (κ × δ) :=
  g.products.entries.filter fun entry => decide (entry.1 ∉ visited)

omit [DecidableEq δ] in
theorem unvisited_append (g : Graph κ δ) (visited : List κ) (key : κ) :
    g.unvisited (visited ++ [key]) =
      (g.unvisited visited).filter fun entry => decide (entry.1 ≠ key) := by
  simp [unvisited, List.filter_filter, Bool.and_comm]

omit [DecidableEq δ] in
theorem unvisited_append_le (g : Graph κ δ) (visited : List κ) (key : κ) :
    (g.unvisited (visited ++ [key])).length ≤ (g.unvisited visited).length := by
  rw [unvisited_append]
  exact List.length_filter_le _ _

omit [DecidableEq δ] in
theorem unvisited_append_lt (g : Graph κ δ) {visited : List κ} {key : κ} {value : δ}
    (fresh : key ∉ visited) (produced : g.products.get? key = some value) :
    (g.unvisited (visited ++ [key])).length < (g.unvisited visited).length := by
  have mem : (key, value) ∈ g.unvisited visited :=
    List.mem_filter.2 ⟨Table.mem_of_get? produced, by simpa using fresh⟩
  rw [unvisited_append]
  exact List.length_filter_lt_length_iff_exists.2 ⟨_, mem, by simp⟩

/-- How many consumers there are, over all values. -/
def consumerCount (g : Graph κ δ) : Nat :=
  g.consumers.entries.foldr (fun entry count => entry.2.length + count) 0

omit [DecidableEq κ] in
theorem length_lookup_le (key : δ) (entries : List (δ × List κ)) :
    ((entries.lookup key).getD []).length ≤
      entries.foldr (fun entry count => entry.2.length + count) 0 := by
  induction entries with
  | nil => simp
  | cons entry rest ih =>
    obtain ⟨k, keys⟩ := entry
    by_cases h : key = k
    · simp [h]
    · simp only [List.lookup_cons, beq_false_of_ne h, List.foldr_cons]
      omega

theorem dependents_le (g : Graph κ δ) (key : κ) : (g.dependents key).length ≤ g.consumerCount := by
  unfold dependents
  cases g.products.get? key with
  | none => simp
  | some value => exact length_lookup_le value g.consumers.entries

/-- What is left to do: a producing key that is not visited yet may push every consumer. -/
def workload (g : Graph κ δ) (visited pending : List κ) : Nat :=
  (g.unvisited visited).length * (g.consumerCount + 1) + pending.length

theorem workload_visit (g : Graph κ δ) {visited : List κ} {key : κ} (fresh : key ∉ visited)
    (pending : List κ) :
    g.workload (visited ++ [key]) ((g.dependents key).reverse ++ pending) <
      g.workload visited (key :: pending) := by
  simp only [workload, List.length_append, List.length_reverse, List.length_cons]
  cases produced : g.products.get? key with
  | none =>
    have hd : (g.dependents key).length = 0 := by simp [dependents, produced]
    have := Nat.mul_le_mul_right (g.consumerCount + 1) (g.unvisited_append_le visited key)
    omega
  | some value =>
    have := Nat.mul_le_mul_right (g.consumerCount + 1) (g.unvisited_append_lt fresh produced)
    have := g.dependents_le key
    rw [Nat.succ_mul] at *
    omega

/-- Visits pending keys, the last one pushed first, and pushes the dependents of every key that is
visited for the first time. -/
def walk (g : Graph κ δ) (visited : List κ) : List κ → List κ
  | [] => visited
  | key :: pending =>
    if key ∈ visited then g.walk visited pending
    else g.walk (visited ++ [key]) ((g.dependents key).reverse ++ pending)
termination_by pending => g.workload visited pending
decreasing_by
  · simp only [workload, List.length_cons]
    omega
  · rename_i fresh
    exact g.workload_visit fresh pending

/-- The key and everything that depends on it, added to what is visited already. -/
def invalidate (g : Graph κ δ) (key : κ) (visited : List κ) : List κ := g.walk visited [key]

def remove (key : κ) (g : Graph κ δ) : Graph κ δ :=
  ⟨g.products.erase key, g.consumers.eraseValue key⟩

end Graph

end GraphQL
