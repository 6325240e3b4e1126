import GraphQL.Proofs.Database.Origin
import GraphQL.Proofs.Inference.Names
import GraphQL.Proofs.Workspace.Snapshot

/-! # Names in snapshots

What is looked up by the name of a directive or a fragment is kept fresh by the dependencies of
definitions. A definition does not depend on what it provides itself: a document that refers back to
its own name keeps the resolution of that name although another document may have provided it first.
Everything else resolves as in a database that is made without reuse, and only to current
documents. -/

namespace GraphQL

set_option autoImplicit false

/-! ## Lookups through names -/

namespace Database

/-- Both give the same for a node in every lookup that may go through the name of a directive or a
fragment. -/
structure AgreeAt (a b : Database) (node : NodeId) : Prop where
  directive : a.directive? node = b.directive? node
  fragment : a.fragment? node = b.fragment? node
  argumentList : a.argumentList? node = b.argumentList? node
  argument : a.argument? node = b.argument? node
  valueType : a.valueType? node = b.valueType? node
  valueDefault : a.valueDefault? node = b.valueDefault? node

/-- All of these lookups end in some revisions. -/
structure WithinAt (live : Nat → Prop) (a : Database) (node : NodeId) : Prop where
  directive : ∀ d ∈ a.directive? node, live d.revision
  fragment : ∀ d ∈ a.fragment? node, live d.revision
  argumentList : ∀ d ∈ a.argumentList? node, live d.revision
  argument : ∀ d ∈ a.argument? node, live d.revision
  valueType : ∀ d ∈ a.valueType? node, live d.revision
  valueDefault : ∀ d ∈ a.valueDefault? node, live d.revision

variable {off : Off} {a b : Database} {node : NodeId} {live : Nat → Prop}

theorem AgreeOff.at (h : a.AgreeOff off b) (names : node ∉ off.names) (given : node ∉ off.given) :
    a.AgreeAt b node :=
  ⟨h.directives _ names, h.fragments _ names, h.argumentLists _ given, h.arguments _ given,
    h.valueTypes _ given, h.valueDefaults _ given⟩

theorem Within.at (h : a.Within live) (node : NodeId) : a.WithinAt live node where
  directive := fun _ hd => h.lookup (fun _ hi => hi.directives) hd
  fragment := fun _ hd => h.lookup (fun _ hi => hi.fragments) hd
  argumentList := fun _ hd => h.lookup (fun _ hi => hi.argumentLists) hd
  argument := fun _ hd => h.lookup (fun _ hi => hi.arguments) hd
  valueType := fun _ hd => h.lookup (fun _ hi => hi.valueTypes) hd
  valueDefault := fun _ hd => h.lookup (fun _ hi => hi.valueDefaults) hd

theorem AgreeAt.within (h : a.AgreeAt b node) (within : b.WithinAt live node) :
    a.WithinAt live node where
  directive := h.directive ▸ within.directive
  fragment := h.fragment ▸ within.fragment
  argumentList := h.argumentList ▸ within.argumentList
  argument := h.argument ▸ within.argument
  valueType := h.valueType ▸ within.valueType
  valueDefault := h.valueDefault ▸ within.valueDefault

end Database

namespace Workspace

open Resolver (directiveNamed? fragmentNamed?)

variable {past : Index → Prop} {w : Workspace}

/-- A revision of a document that is there. -/
def IsCurrent (w : Workspace) (revision : Nat) : Prop :=
  ∃ d ∈ w.documents, d.revision.id = revision

theorem freshDatabase_within (w : Workspace) : w.freshDatabase.Within w.IsCurrent := by
  refine Database.build_within fun r hr => ?_
  obtain ⟨d, hd, rfl⟩ := List.mem_map.1 hr
  exact ⟨d, hd, rfl⟩

/-- Spreads are found in current documents even where they refer back. -/
theorem spreads_current (agree : w.database.AgreeOff w.selfOff w.freshDatabase) {fragment : NodeId}
    {s : Located FragmentSpread} (hs : s ∈ w.database.spreads fragment) : w.IsCurrent s.revision := by
  by_cases back : s.id ∈ w.selfReferences
  · obtain ⟨d, hd, listed⟩ := List.mem_flatMap.1 back
    obtain ⟨site, -, same⟩ := List.mem_map.1 listed
    exact ⟨d, hd, congrArg NodeId.revision same⟩
  · have kept : s ∈ spreadsOff w.selfReferences (w.database.spreads fragment) :=
      List.mem_filter.2 ⟨hs, by simpa using back⟩
    rw [show spreadsOff w.selfReferences _ = _ from agree.spreads fragment] at kept
    obtain ⟨entry, he, found⟩ := List.mem_flatMap.1 (List.mem_filter.1 kept).1
    exact (w.freshDatabase_within entry he).spreads fragment s found

/-- Directives and spreads of a document are resolved by the index that it was last resolved by. -/
theorem Coherent.names_of_index (h : w.Coherent past) {d : OpenDocument} (hd : d ∈ w.documents) :
    ∃ old, (past old ∨ old = w.presentIndex) ∧
      (∀ directive, .directive directive ∈ d.revision.tree.outline.nodes →
        w.rebuild.database.directive? ((Node.directive directive).id d.revision.id) =
          directiveNamed? old directive) ∧
      ∀ spread, .spread spread ∈ d.revision.tree.outline.nodes →
        w.rebuild.database.fragment? ((Node.spread spread).id d.revision.id) =
          fragmentNamed? old spread := by
  obtain ⟨old, hold, resolved, -⟩ := h.resolvedBy_eq hd
  have member := List.mem_map_of_mem (f := OpenDocument.revision) hd
  refine ⟨old, hold, fun directive hn => ?_, fun spread hn => ?_⟩
  · rw [← infer_directive (h.ordered hd) hn, ← resolved]
    refine Database.lookup_own h.inferences_snapshot h.revisions_map _ (fun r hr other => ?_) member rfl
    obtain ⟨e, he, rfl⟩ := List.mem_map.1 hr
    obtain ⟨index, -, resolved, -⟩ := h.resolvedBy_eq he
    rw [resolved, infer_directive_other other]
  · rw [← infer_spread (h.ordered hd) hn, ← resolved]
    refine Database.lookup_own h.inferences_snapshot h.revisions_map _ (fun r hr other => ?_) member rfl
    obtain ⟨e, he, rfl⟩ := List.mem_map.1 hr
    obtain ⟨index, -, resolved, -⟩ := h.resolvedBy_eq he
    rw [resolved, infer_spread_other other]

theorem Coherent.names_of_fresh (h : w.Coherent past) {d : OpenDocument} (hd : d ∈ w.documents) :
    (∀ directive, .directive directive ∈ d.revision.tree.outline.nodes →
      w.freshDatabase.directive? ((Node.directive directive).id d.revision.id) =
        directiveNamed? w.presentIndex directive) ∧
    ∀ spread, .spread spread ∈ d.revision.tree.outline.nodes →
      w.freshDatabase.fragment? ((Node.spread spread).id d.revision.id) =
        fragmentNamed? w.presentIndex spread := by
  have member := List.mem_map_of_mem (f := OpenDocument.revision) hd
  refine ⟨fun directive hn => ?_, fun spread hn => ?_⟩
  · rw [← infer_directive (h.ordered hd) hn]
    exact Database.lookup_own h.inferences_fresh h.revisions_map _
      (fun r _ other => infer_directive_other other) member rfl
  · rw [← infer_spread (h.ordered hd) hn]
    exact Database.lookup_own h.inferences_fresh h.revisions_map _
      (fun r _ other => infer_spread_other other) member rfl

/-- However a workspace was edited, its snapshot resolves by name what a database made without reuse
does, and to current documents, wherever a site does not refer back. Directives and spreads that do
are resolved by the index of an earlier snapshot of the run, and so as without reuse just if that
index has the same definition of the name as the present one. -/
theorem rebuiltRun_resolves_names (builtins : Bool) (steps : List Step) :
    let w := rebuiltRun builtins steps
    (∀ d ∈ w.documents, ∀ site ∈ d.revision.tree.sites, site.refersBack = false →
      w.database.AgreeAt w.freshDatabase (site.node.id d.revision.id) ∧
      w.database.WithinAt w.IsCurrent (site.node.id d.revision.id)) ∧
    (∀ fragment, spreadsOff w.selfReferences (w.database.spreads fragment) =
      spreadsOff w.selfReferences (w.freshDatabase.spreads fragment)) ∧
    (∀ fragment, ∀ s ∈ w.database.spreads fragment, w.IsCurrent s.revision) ∧
    ∀ d ∈ w.documents, ∃ old, Past (opened builtins) (steps ++ [.rebuild]) old ∧
      (∀ directive, .directive directive ∈ d.revision.tree.outline.nodes →
        let node := (Node.directive directive).id d.revision.id
        w.database.directive? node = directiveNamed? old directive ∧
        (w.database.directive? node = w.freshDatabase.directive? node ↔
          directiveNamed? old directive = directiveNamed? w.presentIndex directive)) ∧
      ∀ spread, .spread spread ∈ d.revision.tree.outline.nodes →
        let node := (Node.spread spread).id d.revision.id
        w.database.fragment? node = fragmentNamed? old spread ∧
        (w.database.fragment? node = w.freshDatabase.fragment? node ↔
          fragmentNamed? old spread = fragmentNamed? w.presentIndex spread) := by
  intro w
  have agree := rebuiltRun_agreeOff builtins steps
  have coherent := rebuiltRun_coherent builtins steps
  refine ⟨fun d hd site hs forth => ?_, agree.spreads, fun _ _ => spreads_current agree,
    fun d hd => ?_⟩
  · have names : site.node.id d.revision.id ∉ w.selfReferences := fun back => by
      rw [(coherent.mem_selfReferences hd hs).1 back] at forth
      cases forth
    have given : site.node.id d.revision.id ∉ w.selfGiven := fun back => by
      rw [((coherent.mem_selfGiven hd hs).1 back).1] at forth
      cases forth
    have same := agree.at names given
    exact ⟨same, same.within (w.freshDatabase_within.at _)⟩
  · have before := run_coherent builtins steps
    have eq : w = ((opened builtins).run steps).rebuild := rebuiltRun_eq builtins steps
    rw [eq] at hd ⊢
    obtain ⟨old, hold, directives, spreads⟩ := before.names_of_index hd
    have fresh := before.names_of_fresh hd
    refine ⟨old, .rebuild hold, fun directive hn => ?_, fun spread hn => ?_⟩
    · refine ⟨directives directive hn, ?_⟩
      rw [directives directive hn]
      exact (congrArg (directiveNamed? old directive = ·) (fresh.1 directive hn)).to_iff
    · refine ⟨spreads spread hn, ?_⟩
      rw [spreads spread hn]
      exact (congrArg (fragmentNamed? old spread = ·) (fresh.2 spread hn)).to_iff

/-- A fragment that spreads itself is there twice, and the first of the two is edited. -/
def editedDuplicate : List Step :=
  [.add "a" "fragment F on T { x }" false, .add "b" "fragment F on T { ...F }" false, .rebuild,
    .replace "a" "fragment F on T { xyz }" false]

set_option maxRecDepth 100000 in
/-- The spread keeps the fragment of the version that was replaced. -/
theorem editedDuplicate_stale :
    let w := rebuiltRun false editedDuplicate
    ∃ d ∈ w.documents, ∃ site ∈ d.revision.tree.sites,
      let node := site.node.id d.revision.id
      (w.database.fragment? node).map Located.id = some ⟨0, .fragmentDefinition, some ⟨1, 0, 21⟩⟩ ∧
      (w.freshDatabase.fragment? node).map Located.id =
        some ⟨2, .fragmentDefinition, some ⟨1, 0, 23⟩⟩ ∧
      ∀ d ∈ w.documents, d.revision.id ≠ 0 := by
  decide +kernel

end Workspace

end GraphQL
