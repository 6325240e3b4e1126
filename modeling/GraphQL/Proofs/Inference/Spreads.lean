import GraphQL.Proofs.Inference.Names

/-! # Spreads of fragments

A spread is filed under the identity of its fragment, unless it stands there already. No two spreads
of a text are the same node, so every spread is filed:

* `MultiMap.get_fileNew`: filing different values is filing all of them,
* `Document.spreads_increase`: the spreads of a text follow one another,
* `infer_spreads`: a fragment has the spreads whose name is resolved to it, in source order. -/

namespace GraphQL

set_option autoImplicit false

open Outline Resolver

variable {α β κ : Type}

/-! ## Filing without repetition -/

namespace MultiMap

variable [DecidableEq κ] [BEq β]

/-- Files a value under the key of each of a list, if it has one, and if the value is new there. -/
def fileNew (key : α → Option κ) (value : α → β) (list : List α) (m : MultiMap κ β) :
    MultiMap κ β :=
  list.foldl (fun m a => (key a).elim m fun k => m.insertNew k (value a)) m

/-- Where all values are different, each key has the values of all that have the key. -/
theorem get_fileNew (key : α → Option κ) (value : α → β) {list : List α}
    (different : list.Pairwise fun a b => (value b == value a) = false) (k : κ) :
    (fileNew key value list {}).get k =
      (list.filter fun a => decide (key a = some k)).map value := by
  induction list using List.reverseRecOn generalizing k with
  | nil => rfl
  | append_singleton list a ih =>
    obtain ⟨earlier, -, new⟩ := List.pairwise_append.1 different
    have last : fileNew key value (list ++ [a]) {} =
        (key a).elim (fileNew key value list {}) fun k =>
          (fileNew key value list {}).insertNew k (value a) := List.foldl_append
    rw [last, List.filter_append, List.map_append, ← ih earlier k, List.filter_singleton]
    cases own : key a with
    | none => simp
    | some k' =>
      have absent : ((fileNew key value list {}).get k').contains (value a) = false := by
        rw [ih earlier k', List.contains_eq_any_beq, List.any_eq_false]
        intro b hb
        obtain ⟨c, hc, rfl⟩ := List.mem_map.1 hb
        rw [new c (List.mem_filter.1 hc).1 a List.mem_cons_self]
        exact Bool.false_ne_true
      rw [Option.elim_some, get_insertNew, absent]
      by_cases same : k = k'
      · simp [same]
      · simp [same, Ne.symm same]

end MultiMap

/-! ## The spreads of a document -/

def Node.spread? : Node → Option FragmentSpread
  | .spread s => some s
  | _ => none

/-- The spreads of a document, in the order of a walk. -/
def Document.spreads (document : Document) : List FragmentSpread :=
  document.outline.nodes.filterMap Node.spread?

theorem Node.spread?_eq_some {n : Node} {s : FragmentSpread} :
    n.spread? = some s ↔ n = .spread s := by
  cases n <;> simp [Node.spread?]

theorem Document.mem_spreads {document : Document} {s : FragmentSpread} :
    s ∈ document.spreads ↔ .spread s ∈ document.outline.nodes := by
  simp only [Document.spreads, List.mem_filterMap, Node.spread?_eq_some, exists_eq_right]

/-- Of two spreads of a text, the second one starts later. -/
theorem Document.spreads_increase {document : Document}
    (ordered : document.outline.tokens.Pairwise Token.Before) :
    document.spreads.Pairwise fun a b => a.dots.span.start < b.dots.span.start := by
  rw [Document.spreads, ← document.map_node_sites]
  refine List.pairwise_filterMap.2 (List.pairwise_map.2 ?_)
  refine (Document.heads_increase ordered).imp fun {a b} increase s hs s' hs' => ?_
  have first : s.dots ∈ a.head? := by
    rw [Site.head?, Node.spread?_eq_some.1 hs]
    rfl
  have second : s'.dots ∈ b.head? := by
    rw [Site.head?, Node.spread?_eq_some.1 hs']
    rfl
  exact increase _ first _ second

/-- Two spreads of a text are different nodes. -/
theorem Document.spreads_apart {document : Document}
    (ordered : document.outline.tokens.Pairwise Token.Before) (revision : Nat) :
    document.spreads.Pairwise fun a b =>
      (Located.mk revision a).id ≠ (Located.mk revision b).id := by
  refine (Document.spreads_increase ordered).imp_of_mem fun {a b} ha hb increase same => ?_
  have one : Node.spread a = .spread b := Document.node_unique ordered (Document.mem_spreads.1 ha)
    (Document.mem_spreads.1 hb) rfl same
  cases one
  exact Int.lt_irrefl _ increase

/-! ## Spreads that are filed -/

namespace Resolver

variable (index : Index) (revision : Nat)

/-- The fragment that a spread is resolved to, by its name. -/
def spreadTarget (s : FragmentSpread) : Option NodeId := (fragmentNamed? index s).map Located.id

/-- A step to a spread files it under its fragment, and no other step files a spread. -/
theorem spreads_step (r : Resolver) (e : Event) :
    (r.step index revision e).inference.spreads =
      r.inference.spreads.fileNew (spreadTarget index) (Located.mk revision)
        (e.entered?.bind Node.spread?).toList := by
  by_cases hs : ∃ s, e = .enter (.spread s)
  · obtain ⟨s, rfl⟩ := hs
    show (r.enterSpread index revision s).inference.spreads =
      (spreadTarget index s).elim r.inference.spreads fun k =>
        r.inference.spreads.insertNew k ⟨revision, s⟩
    unfold enterSpread spreadTarget fragmentNamed?
    cases index.fragments.first? s.name.text <;> rfl
  · have none : e.entered?.bind Node.spread? = none := by
      rw [Option.bind_eq_none_iff]
      intro n hn
      rw [Option.eq_none_iff_forall_ne_some]
      intro s spread
      cases e with
      | enter m =>
        cases hn
        exact hs ⟨s, congrArg _ (Node.spread?_eq_some.1 spread)⟩
      | _ => cases hn
    rw [none, (step_fragments fun s h => hs ⟨s, h⟩).2]
    rfl

theorem spreads_foldl (events : List Event) (r : Resolver) :
    (events.foldl (step index revision) r).inference.spreads =
      r.inference.spreads.fileNew (spreadTarget index) (Located.mk revision)
        ((events.filterMap Event.entered?).filterMap Node.spread?) := by
  induction events generalizing r with
  | nil => rfl
  | cons e events ih =>
    rw [List.foldl_cons, ih, spreads_step, List.filterMap_filterMap, List.filterMap_filterMap,
      List.filterMap_cons]
    cases e.entered?.bind Node.spread? <;> rfl

end Resolver

/-- A fragment has the spreads of a document that are resolved to it by their names, in source
order. -/
theorem infer_spreads {index : Index} {revision : Revision}
    (ordered : revision.tree.outline.tokens.Pairwise Token.Before) (fragment : NodeId) :
    (infer index revision).spreads.get fragment =
      (revision.tree.spreads.filter fun s => decide (spreadTarget index s = some fragment)).map
        (Located.mk revision.id) := by
  have different := (Document.spreads_apart ordered revision.id).imp fun apart =>
    beq_eq_false_iff_ne.2 (Ne.symm apart)
  rw [infer, spreads_foldl, Outline.entered_events]
  exact MultiMap.get_fileNew (spreadTarget index) (Located.mk revision.id) different fragment

end GraphQL
