import GraphQL.Dependency
import GraphQL.Proofs.Dependency.Erasure

/-! # Values as texts

A graph may hold the texts of dependencies in place of the dependencies. Different dependencies have
different texts, `Dependency.key_injective`, and a graph in which values are renamed so that no two
become one gives the same answers:

* `Graph.invalidate_rename` and `Graph.consumersOf_rename` for one graph,
* `Graph.after_rename`: each change may be renamed in place of the graph,
* `Graph.after_keys` for the texts of dependencies, behind any history. -/

namespace GraphQL

set_option autoImplicit false

namespace Dependency

/-- The dependency that has the text; two units tell what it is the name of. -/
def ofKey (t : Text) : Dependency :=
  if t.take 2 = "Ty" then .type (t.drop 5)
  else if t.take 2 = "Di" then .directive (t.drop 10)
  else if t.take 2 = "Fr" then .fragment (t.drop 9)
  else if t.take 2 = "Qu" then .root .query
  else if t.take 2 = "Mu" then .root .mutation
  else if t.take 2 = "Su" then .root .subscription
  else .schema

theorem ofKey_key : Function.LeftInverse ofKey key
  | .root .query => by decide
  | .root .mutation => by decide
  | .root .subscription => by decide
  | .schema => by decide
  | .type _ => rfl
  | .directive _ => rfl
  | .fragment _ => rfl

theorem key_injective : Function.Injective key := ofKey_key.injective

end Dependency

variable {κ δ ε : Type} {f : δ → ε}

/-! ## Tables and multimaps -/

namespace Table

variable [DecidableEq κ]

def mapValues (f : δ → ε) (t : Table κ δ) : Table κ ε :=
  ⟨t.entries.map fun entry => (entry.1, f entry.2)⟩

theorem get?_mapValues (t : Table κ δ) (key : κ) : (t.mapValues f).get? key = (t.get? key).map f := by
  obtain ⟨entries⟩ := t
  unfold mapValues
  induction entries with
  | nil => rfl
  | cons entry rest ih =>
    obtain ⟨k, value⟩ := entry
    rw [List.map_cons, get?_cons, get?_cons]
    by_cases own : key = k
    · rw [if_pos own, if_pos own, Option.map_some]
    · rw [if_neg own, if_neg own]
      exact ih

theorem mapValues_erase (t : Table κ δ) (key : κ) :
    (t.erase key).mapValues f = (t.mapValues f).erase key := by
  unfold mapValues erase
  rw [List.filter_map]
  rfl

end Table

namespace MultiMap

variable {α : Type}

def mapKeys (f : δ → ε) (m : MultiMap δ α) : MultiMap ε α :=
  ⟨m.entries.map fun entry => (f entry.1, entry.2)⟩

theorem mapKeys_eraseValue [BEq α] (m : MultiMap δ α) (value : α) :
    (m.eraseValue value).mapKeys f = (m.mapKeys f).eraseValue value := by
  unfold eraseValue mapKeys
  refine congrArg MultiMap.mk ?_
  rw [List.map_map, List.filter_map, List.filter_map, List.map_map]
  rfl

variable [DecidableEq δ] [DecidableEq ε]

theorem get_mapKeys (injective : Function.Injective f) (m : MultiMap δ α) (key : δ) :
    (m.mapKeys f).get (f key) = m.get key := by
  obtain ⟨entries⟩ := m
  unfold mapKeys get
  induction entries with
  | nil => rfl
  | cons entry rest ih =>
    obtain ⟨k, values⟩ := entry
    rw [List.map_cons, List.lookup_cons, List.lookup_cons]
    by_cases own : key = k
    · rw [beq_iff_eq.2 own, beq_iff_eq.2 (congrArg f own)]
    · rw [beq_false_of_ne own, beq_false_of_ne (injective.ne own)]
      exact ih

theorem mapKeys_insert (injective : Function.Injective f) (m : MultiMap δ α) (key : δ) (value : α) :
    (m.insert key value).mapKeys f = (m.mapKeys f).insert (f key) value := by
  obtain ⟨entries⟩ := m
  unfold mapKeys insert
  refine congrArg MultiMap.mk ?_
  induction entries with
  | nil => rfl
  | cons entry rest ih =>
    obtain ⟨k, values⟩ := entry
    rw [List.map_cons, insertInto, insertInto]
    by_cases own : k = key
    · rw [if_pos own, if_pos (congrArg f own), List.map_cons]
    · rw [if_neg own, if_neg (injective.ne own), List.map_cons, ih]

theorem mapKeys_insertNew [BEq α] (injective : Function.Injective f) (m : MultiMap δ α) (key : δ)
    (value : α) : (m.insertNew key value).mapKeys f = (m.mapKeys f).insertNew (f key) value := by
  unfold insertNew
  rw [get_mapKeys injective]
  split
  · rfl
  · exact mapKeys_insert injective m key value

end MultiMap

/-! ## Graphs -/

def Change.rename (f : δ → ε) : Change κ δ → Change κ ε
  | .produce key value => .produce key (f value)
  | .consume key value => .consume key (f value)
  | .remove key => .remove key

namespace Graph

/-- The graph with other values in place of its own. -/
def rename (f : δ → ε) (g : Graph κ δ) : Graph κ ε :=
  ⟨g.products.mapValues f, g.consumers.mapKeys f⟩

theorem produces_rename [DecidableEq κ] (g : Graph κ δ) (key : κ) :
    (g.rename f).produces key = g.produces key := by
  unfold produces Table.contains
  rw [rename, Table.get?_mapValues, Option.isSome_map]

variable [DecidableEq δ] [DecidableEq ε]

theorem consumersOf_rename (injective : Function.Injective f) (g : Graph κ δ) (value : δ) :
    (g.rename f).consumersOf (f value) = g.consumersOf value :=
  MultiMap.get_mapKeys injective g.consumers value

variable [DecidableEq κ]

theorem rename_apply (injective : Function.Injective f) (g : Graph κ δ) (change : Change κ δ) :
    (change.apply g).rename f = (change.rename f).apply (g.rename f) := by
  cases change with
  | produce key value => rfl
  | consume key value =>
    exact congrArg (Graph.mk _) (MultiMap.mapKeys_insertNew injective g.consumers value key)
  | remove key =>
    exact congr (congrArg Graph.mk (Table.mapValues_erase g.products key))
      (MultiMap.mapKeys_eraseValue g.consumers key)

theorem after_rename (injective : Function.Injective f) (history : List (Change κ δ)) :
    (after history).rename f = after (history.map (Change.rename f)) := by
  induction history using List.reverseRecOn with
  | nil => rfl
  | append_singleton history change ih =>
    rw [List.map_append, after, List.foldl_append, after, List.foldl_append]
    show (change.apply (after history)).rename f =
      (change.rename f).apply (after (history.map (Change.rename f)))
    rw [rename_apply injective, ih]

variable (g : Graph κ δ)

theorem dependents_rename (injective : Function.Injective f) (key : κ) :
    (g.rename f).dependents key = g.dependents key := by
  have product : (g.rename f).products.get? key = (g.products.get? key).map f :=
    Table.get?_mapValues g.products key
  unfold dependents
  rw [product]
  cases g.products.get? key with
  | none => rfl
  | some value => exact consumersOf_rename injective g value

theorem walk_rename (injective : Function.Injective f) (visited pending : List κ) :
    (g.rename f).walk visited pending = g.walk visited pending := by
  fun_induction walk g visited pending with
  | case1 visited => rw [walk]
  | case2 visited key pending seen ih => rw [walk, if_pos seen, ih]
  | case3 visited key pending fresh ih =>
    rw [walk, if_neg fresh, g.dependents_rename injective, ih]

theorem invalidate_rename (injective : Function.Injective f) (start : κ) (visited : List κ) :
    (g.rename f).invalidate start visited = g.invalidate start visited :=
  g.walk_rename injective visited [start]

/-- A graph that is told the texts of dependencies answers as one that is told the dependencies. -/
theorem after_keys (history : List (Change κ Dependency)) :
    let keyed := after (history.map (Change.rename Dependency.key))
    (∀ key, keyed.produces key = (after history).produces key) ∧
    (∀ value, keyed.consumersOf value.key = (after history).consumersOf value) ∧
    ∀ start visited, keyed.invalidate start visited = (after history).invalidate start visited := by
  intro keyed
  have renamed : keyed = (after history).rename Dependency.key :=
    (after_rename Dependency.key_injective history).symm
  rw [renamed]
  exact ⟨produces_rename _, consumersOf_rename Dependency.key_injective _,
    invalidate_rename _ Dependency.key_injective⟩

end Graph

end GraphQL
