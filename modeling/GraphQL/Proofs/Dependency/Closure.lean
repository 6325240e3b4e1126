import GraphQL.Dependency.Graph
import GraphQL.Proofs.Table

/-! # What invalidation reaches

* `Graph.invalidate_closed`: what is stale takes its dependents with it,
* `Graph.dependents_remove`: forgetting a key makes no new dependents,
* `Graph.mem_consumersOf_consume`, `Graph.mem_consumersOf_remove`: the consumers behind each
  change. -/

namespace GraphQL

set_option autoImplicit false

namespace Graph

variable {κ δ : Type} [DecidableEq κ] [DecidableEq δ] (g : Graph κ δ)

/-! ## Walks -/

theorem mem_walk_of_visited {visited pending : List κ} {key : κ} (h : key ∈ visited) :
    key ∈ g.walk visited pending := by
  fun_induction walk g visited pending with
  | case1 => exact h
  | case2 visited k pending hk ih => exact ih h
  | case3 visited k pending hk ih => exact ih (List.mem_append_left _ h)

theorem mem_walk_of_pending {visited pending : List κ} {key : κ} (h : key ∈ pending) :
    key ∈ g.walk visited pending := by
  fun_induction walk g visited pending with
  | case1 => cases h
  | case2 visited k pending hk ih =>
    rcases List.mem_cons.1 h with rfl | h
    · exact mem_walk_of_visited g hk
    · exact ih h
  | case3 visited k pending hk ih =>
    rcases List.mem_cons.1 h with rfl | h
    · exact mem_walk_of_visited g (List.mem_append_right _ List.mem_cons_self)
    · exact ih (List.mem_append_right _ h)

/-- The dependents of every key are there, but for those in `P`. -/
def ClosedUpTo (P : κ → Prop) (keys : List κ) : Prop :=
  ∀ key ∈ keys, ∀ other ∈ g.dependents key, other ∈ keys ∨ P other

/-- The dependents of every key are there. -/
def Closed (keys : List κ) : Prop := ∀ key ∈ keys, ∀ other ∈ g.dependents key, other ∈ keys

/-- Where the dependents of visited keys are visited, pending or in `P`, a walk ends closed up to
`P`. -/
theorem walk_closedUpTo {P : κ → Prop} {visited pending : List κ}
    (h : ∀ key ∈ visited, ∀ other ∈ g.dependents key,
      (other ∈ visited ∨ other ∈ pending) ∨ P other) :
    g.ClosedUpTo P (g.walk visited pending) := by
  fun_induction walk g visited pending with
  | case1 visited =>
    intro key hk other ho
    exact (h key hk other ho).imp_left fun hn => hn.resolve_right List.not_mem_nil
  | case2 visited k pending hk ih =>
    apply ih
    intro key hkey other ho
    rcases h key hkey other ho with (hv | hp) | hP
    · exact .inl (.inl hv)
    · rcases List.mem_cons.1 hp with rfl | hp
      · exact .inl (.inl hk)
      · exact .inl (.inr hp)
    · exact .inr hP
  | case3 visited k pending hk ih =>
    apply ih
    intro key hkey other ho
    rcases List.mem_append.1 hkey with hkey | hkey
    · rcases h key hkey other ho with (hv | hp) | hP
      · exact .inl (.inl (List.mem_append_left _ hv))
      · rcases List.mem_cons.1 hp with rfl | hp
        · exact .inl (.inl (List.mem_append_right _ List.mem_cons_self))
        · exact .inl (.inr (List.mem_append_right _ hp))
      · exact .inr hP
    · rw [List.mem_singleton.1 hkey] at ho
      exact .inl (.inr (List.mem_append_left _ (List.mem_reverse.2 ho)))

/-- Where the dependents of visited keys are visited or pending, a walk ends closed. -/
theorem walk_closed {visited pending : List κ}
    (h : ∀ key ∈ visited, ∀ other ∈ g.dependents key, other ∈ visited ∨ other ∈ pending) :
    g.Closed (g.walk visited pending) := fun key hk other ho =>
  (g.walk_closedUpTo (P := fun _ => False) (fun k hk o ho => .inl (h k hk o ho)) key hk other ho).elim
    id False.elim

theorem mem_invalidate_self (key : κ) (visited : List κ) : key ∈ g.invalidate key visited :=
  g.mem_walk_of_pending List.mem_cons_self

theorem mem_invalidate_of_mem {key other : κ} {visited : List κ} (h : other ∈ visited) :
    other ∈ g.invalidate key visited := g.mem_walk_of_visited h

theorem invalidate_closedUpTo {P : κ → Prop} {visited : List κ} (h : g.ClosedUpTo P visited)
    (key : κ) : g.ClosedUpTo P (g.invalidate key visited) :=
  g.walk_closedUpTo fun k hk other ho => (h k hk other ho).imp_left .inl

theorem invalidate_closed {visited : List κ} (h : g.Closed visited) (key : κ) :
    g.Closed (g.invalidate key visited) :=
  g.walk_closed fun k hk other ho => .inl (h k hk other ho)

variable {g}

theorem mem_dependents {key other : κ} :
    other ∈ g.dependents key ↔
      ∃ value, g.products.get? key = some value ∧ other ∈ g.consumersOf value := by
  unfold dependents
  cases g.products.get? key <;> simp

/-! ## Changes -/

/-- No value stands twice among those that have consumers. -/
def Regular (g : Graph κ δ) : Prop := g.consumers.keys.Nodup

theorem mem_consumersOf_remove (regular : g.Regular) {key other : κ} {value : δ} :
    other ∈ (g.remove key).consumersOf value ↔ other ∈ g.consumersOf value ∧ other ≠ key := by
  unfold consumersOf remove
  rw [MultiMap.get_eraseValue regular, List.mem_filter, bne_iff_ne]

omit [DecidableEq δ] in
theorem Regular.remove (regular : g.Regular) (key : κ) : (g.remove key).Regular :=
  List.Nodup.sublist (MultiMap.keys_eraseValue_sublist g.consumers key) regular

theorem Regular.consume (regular : g.Regular) (key : κ) (value : δ) : (g.consume key value).Regular :=
  MultiMap.keys_insertNew_nodup regular value key

theorem mem_consumersOf_consume {key other : κ} {value v : δ} :
    other ∈ (g.consume key value).consumersOf v ↔
      other ∈ g.consumersOf v ∨ v = value ∧ other = key := MultiMap.mem_get_insertNew ..

theorem dependents_remove (regular : g.Regular) {key k other : κ}
    (h : other ∈ (g.remove key).dependents k) : other ∈ g.dependents k := by
  obtain ⟨value, hv, ho⟩ := mem_dependents.1 h
  rw [remove, Table.get?_erase] at hv
  split at hv
  · cases hv
  · exact mem_dependents.2 ⟨value, hv, ((mem_consumersOf_remove regular).1 ho).1⟩

theorem Closed.remove {keys : List κ} (h : g.Closed keys) (regular : g.Regular) (key : κ) :
    (g.remove key).Closed keys :=
  fun k hk other ho => h k hk other (dependents_remove regular ho)

end Graph

end GraphQL
