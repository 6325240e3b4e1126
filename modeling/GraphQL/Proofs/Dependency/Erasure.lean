import Mathlib.Data.List.Induction
import GraphQL.Proofs.Dependency.Avoidance

/-! # Forgetting a key

A graph comes about by a history of changes, each of them made by one key. Removing a key undoes all
that it did, at whatever time and between whichever changes of others:

* `Graph.Alike` relates graphs that give the same answers,
* `Change.remove_own`: removing a key swallows a change that the key has made,
* `Change.remove_other`: it commutes with the changes of other keys,
* `Graph.remove_erases`: a removed key might as well not have been there. -/

namespace GraphQL

set_option autoImplicit false

variable {κ δ : Type} [DecidableEq κ] [DecidableEq δ]

/-- What a key does to a graph. -/
inductive Change (κ δ : Type) where
  | produce (key : κ) (value : δ)
  | consume (key : κ) (value : δ)
  | remove (key : κ)

/-- The key that makes the change. -/
def Change.key : Change κ δ → κ
  | .produce key _ => key
  | .consume key _ => key
  | .remove key => key

def Change.apply (g : Graph κ δ) : Change κ δ → Graph κ δ
  | .produce key value => g.produce key value
  | .consume key value => g.consume key value
  | .remove key => g.remove key

namespace Graph

/-- The graph that a history leads to. -/
def after (history : List (Change κ δ)) : Graph κ δ := history.foldl Change.apply {}

/-! ## Graphs that answer alike -/

/-- The keys produce the same, and every value has the same consumers. -/
structure Alike (g h : Graph κ δ) : Prop where
  products : ∀ key, g.products.get? key = h.products.get? key
  consumers : ∀ value key, key ∈ g.consumersOf value ↔ key ∈ h.consumersOf value

variable {g h i : Graph κ δ}

theorem Alike.refl (g : Graph κ δ) : g.Alike g := ⟨fun _ => rfl, fun _ _ => Iff.rfl⟩

theorem Alike.trans (gh : g.Alike h) (hi : h.Alike i) : g.Alike i where
  products key := (gh.products key).trans (hi.products key)
  consumers value key := (gh.consumers value key).trans (hi.consumers value key)

theorem Alike.produces (alike : g.Alike h) (key : κ) : g.produces key = h.produces key :=
  congrArg Option.isSome (alike.products key)

theorem Alike.mem_dependents (alike : g.Alike h) {key other : κ} :
    other ∈ g.dependents key ↔ other ∈ h.dependents key := by
  rw [Graph.mem_dependents, Graph.mem_dependents, alike.products key]
  exact exists_congr fun value => and_congr_right fun _ => alike.consumers value other

theorem Alike.leadsAround (alike : g.Alike h) {avoided : List κ} {start key : κ} :
    g.LeadsAround avoided start key ↔ h.LeadsAround avoided start key := by
  have same : (fun key other => other ∈ g.dependents key ∧ other ∉ avoided) =
      fun key other => other ∈ h.dependents key ∧ other ∉ avoided := by
    funext key other
    rw [alike.mem_dependents]
  rw [LeadsAround, LeadsAround, same]

theorem Alike.mem_invalidate (alike : g.Alike h) {visited : List κ} {start key : κ} :
    key ∈ g.invalidate start visited ↔ key ∈ h.invalidate start visited := by
  rw [mem_invalidate_iff, mem_invalidate_iff, alike.leadsAround]

/-! ## What changes keep -/

theorem Regular.apply (regular : g.Regular) (change : Change κ δ) : (change.apply g).Regular := by
  cases change with
  | produce key value => exact regular
  | consume key value => exact regular.consume key value
  | remove key => exact regular.remove key

theorem filled_apply (filled : g.consumers.Filled) (change : Change κ δ) :
    (change.apply g).consumers.Filled := by
  cases change with
  | produce key value => exact filled
  | consume key value => exact filled.insertNew value key
  | remove key => exact MultiMap.eraseValue_filled g.consumers key

/-- What every change keeps holds of a graph that a history leads to. -/
theorem after_induction {P : Graph κ δ → Prop} (start : P {})
    (step : ∀ g change, P g → P (Change.apply g change)) (history : List (Change κ δ)) :
    P (after history) := by
  unfold after
  generalize ({} : Graph κ δ) = g at start
  induction history generalizing g with
  | nil => exact start
  | cons change history ih => exact ih (Change.apply g change) (step g change start)

theorem after_regular (history : List (Change κ δ)) : (after history).Regular :=
  after_induction (P := Regular) List.nodup_nil (fun _ change h => h.apply change) history

theorem after_filled (history : List (Change κ δ)) : (after history).consumers.Filled :=
  after_induction (P := fun g => g.consumers.Filled) List.not_mem_nil
    (fun _ change filled => filled_apply filled change) history

/-- The same change to graphs that answer alike. -/
theorem Alike.apply (alike : g.Alike h) (regular : g.Regular) (regular' : h.Regular)
    (change : Change κ δ) : (change.apply g).Alike (change.apply h) := by
  cases change with
  | produce key value =>
    refine ⟨fun k => ?_, alike.consumers⟩
    show (g.products.insert key value).get? k = (h.products.insert key value).get? k
    rw [Table.get?_insert, Table.get?_insert, alike.products k]
  | consume key value =>
    refine ⟨alike.products, fun v k => ?_⟩
    show k ∈ (g.consume key value).consumersOf v ↔ k ∈ (h.consume key value).consumersOf v
    rw [mem_consumersOf_consume, mem_consumersOf_consume, alike.consumers]
  | remove key =>
    refine ⟨fun k => ?_, fun v k => ?_⟩
    · show (g.products.erase key).get? k = (h.products.erase key).get? k
      rw [Table.get?_erase, Table.get?_erase, alike.products k]
    · show k ∈ (g.remove key).consumersOf v ↔ k ∈ (h.remove key).consumersOf v
      rw [mem_consumersOf_remove regular, mem_consumersOf_remove regular', alike.consumers]

end Graph

open GraphQL.Graph

/-! ## Removing a key -/

namespace Change

variable {g : Graph κ δ}

/-- Removing a key takes back a change that the key has made. -/
theorem remove_own (regular : g.Regular) (change : Change κ δ) :
    ((change.apply g).remove change.key).Alike (g.remove change.key) := by
  cases change with
  | produce key value =>
    refine ⟨fun k => ?_, fun _ _ => Iff.rfl⟩
    show ((g.products.insert key value).erase key).get? k = (g.products.erase key).get? k
    rw [Table.get?_erase, Table.get?_erase, Table.get?_insert]
    split <;> rfl
  | consume key value =>
    refine ⟨fun _ => rfl, fun v k => ?_⟩
    show k ∈ ((g.consume key value).remove key).consumersOf v ↔ k ∈ (g.remove key).consumersOf v
    rw [mem_consumersOf_remove (regular.consume key value), mem_consumersOf_remove regular,
      mem_consumersOf_consume]
    constructor
    · rintro ⟨there | ⟨-, own⟩, other⟩
      · exact ⟨there, other⟩
      · exact absurd own other
    · rintro ⟨there, other⟩
      exact ⟨.inl there, other⟩
  | remove key =>
    refine ⟨fun k => ?_, fun v k => ?_⟩
    · show ((g.products.erase key).erase key).get? k = (g.products.erase key).get? k
      rw [Table.get?_erase, Table.get?_erase]
      split <;> rfl
    · show k ∈ ((g.remove key).remove key).consumersOf v ↔ k ∈ (g.remove key).consumersOf v
      rw [mem_consumersOf_remove (regular.remove key), mem_consumersOf_remove regular, and_assoc,
        and_self]

/-- Removing a key and a change that another one makes may be swapped. -/
theorem remove_other (regular : g.Regular) {change : Change κ δ} {gone : κ}
    (other : change.key ≠ gone) :
    ((change.apply g).remove gone).Alike (change.apply (g.remove gone)) := by
  cases change with
  | produce key value =>
    refine ⟨fun k => ?_, fun _ _ => Iff.rfl⟩
    show ((g.products.insert key value).erase gone).get? k =
      ((g.products.erase gone).insert key value).get? k
    rw [Table.get?_erase, Table.get?_insert, Table.get?_insert, Table.get?_erase]
    by_cases hk : k = gone
    · have apart : k ≠ key := fun same => other (same ▸ hk)
      rw [if_pos hk, if_neg apart, if_pos hk]
    · rw [if_neg hk, if_neg hk]
  | consume key value =>
    refine ⟨fun _ => rfl, fun v k => ?_⟩
    show k ∈ ((g.consume key value).remove gone).consumersOf v ↔
      k ∈ ((g.remove gone).consume key value).consumersOf v
    rw [mem_consumersOf_remove (regular.consume key value), mem_consumersOf_consume,
      mem_consumersOf_consume, mem_consumersOf_remove regular]
    constructor
    · rintro ⟨there | own, hk⟩
      · exact .inl ⟨there, hk⟩
      · exact .inr own
    · rintro (⟨there, hk⟩ | own)
      · exact ⟨.inl there, hk⟩
      · exact ⟨.inr own, fun same => other (own.2 ▸ same)⟩
  | remove key =>
    refine ⟨fun k => ?_, fun v k => ?_⟩
    · show ((g.products.erase key).erase gone).get? k = ((g.products.erase gone).erase key).get? k
      rw [Table.get?_erase, Table.get?_erase, Table.get?_erase, Table.get?_erase]
      split <;> split <;> rfl
    · show k ∈ ((g.remove key).remove gone).consumersOf v ↔
        k ∈ ((g.remove gone).remove key).consumersOf v
      rw [mem_consumersOf_remove (regular.remove key), mem_consumersOf_remove regular,
        mem_consumersOf_remove (regular.remove gone), mem_consumersOf_remove regular,
        and_right_comm]

end Change

namespace Graph

/-- A removed key leaves the graph that the changes of the other keys lead to. -/
theorem remove_alike (history : List (Change κ δ)) (gone : κ) :
    ((after history).remove gone).Alike
      (after (history.filter fun change => change.key ≠ gone)) := by
  induction history using List.reverseRecOn with
  | nil => exact .refl _
  | append_singleton history change ih =>
    have regular := after_regular history
    have last (rest : List (Change κ δ)) : after (rest ++ [change]) = change.apply (after rest) :=
      List.foldl_append
    rw [List.filter_append, last]
    by_cases own : change.key = gone
    · rw [List.filter_cons_of_neg (by simpa using own), List.filter_nil, List.append_nil]
      exact (own ▸ change.remove_own regular).trans ih
    · rw [List.filter_cons_of_pos (by simpa using own), List.filter_nil, last]
      exact (Change.remove_other regular own).trans
        (ih.apply (regular.remove gone) (after_regular _) change)

/-- Behind a removal a graph answers as if the key had never done anything, and no value is kept that
has no consumers. -/
theorem remove_erases (history : List (Change κ δ)) (gone : κ) :
    let removed := (after history).remove gone
    let others := after (history.filter fun change => change.key ≠ gone)
    (∀ key, removed.produces key = others.produces key) ∧
    (∀ value key, key ∈ removed.consumersOf value ↔ key ∈ others.consumersOf value) ∧
    (∀ start visited key,
      key ∈ removed.invalidate start visited ↔ key ∈ others.invalidate start visited) ∧
    [] ∉ removed.consumers.entries.map Prod.snd ∧ [] ∉ others.consumers.entries.map Prod.snd := by
  intro removed others
  have alike : removed.Alike others := remove_alike history gone
  exact ⟨alike.produces, alike.consumers, fun start visited key => alike.mem_invalidate,
    MultiMap.eraseValue_filled _ gone, after_filled _⟩

end Graph

end GraphQL
