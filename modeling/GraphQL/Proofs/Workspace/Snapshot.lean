import Mathlib.Data.List.Nodup
import GraphQL.Proofs.Database.Agreement
import GraphQL.Proofs.Workspace.Rebuild

/-! # Snapshots of edited workspaces

A run starts with an empty workspace or with the built-in definitions, and edits and rebuilds in any
order. The snapshot that a rebuild makes at its end reuses what earlier rebuilds resolved. Here it is
compared with a database that is made from the same documents without any reuse. -/

namespace GraphQL

set_option autoImplicit false

namespace Workspace

/-! ## Runs -/

/-- What can be done to a workspace. -/
inductive Step where
  | add (key text : Text) (isBuiltin : Bool)
  /-- Replacing is adding under a key that is there. -/
  | replace (key text : Text) (isBuiltin : Bool)
  | remove (key : Text)
  | rebuild

/-- A workspace where a run starts, perhaps with the built-in definitions. -/
def opened (builtins : Bool) : Workspace := if builtins then withBuiltins else {}

def step (w : Workspace) : Step → Workspace
  | .add key text isBuiltin => (w.add key text isBuiltin).1
  | .replace key text isBuiltin => (w.add key text isBuiltin).1
  | .remove key => (w.remove key).1
  | .rebuild => w.rebuild

def run (w : Workspace) (steps : List Step) : Workspace := steps.foldl step w

/-- The index of a snapshot that was there in the course of a run. -/
def Past (start : Workspace) (steps : List Step) (index : Index) : Prop :=
  ∃ earlier, earlier <+: steps ∧ index = (start.run earlier).database.index

variable {past past' : Index → Prop} {w : Workspace}

theorem Coherent.mono (h : w.Coherent past) (sub : ∀ index, past index → past' index) :
    w.Coherent past' :=
  { h with
    fresh := fun d hd stale =>
      have ⟨old, hold, made⟩ := h.fresh d hd stale
      ⟨old, sub old hold, made⟩ }

theorem Past.append {start : Workspace} {steps : List Step} {index : Index}
    (h : Past start steps index) (step : Step) : Past start (steps ++ [step]) index := by
  obtain ⟨earlier, before, rfl⟩ := h
  exact ⟨earlier, before.trans (List.prefix_append steps [step]), rfl⟩

theorem run_append (start : Workspace) (steps : List Step) (step : Step) :
    start.run (steps ++ [step]) = (start.run steps).step step := by
  rw [run, List.foldl_append, List.foldl_cons, List.foldl_nil, run]

/-- The index that a rebuild makes is one of the run. -/
theorem Past.rebuild {start : Workspace} {steps : List Step} {index : Index}
    (h : Past start steps index ∨ index = (start.run steps).presentIndex) :
    Past start (steps ++ [.rebuild]) index := by
  rcases h with h | rfl
  · exact h.append .rebuild
  · refine ⟨steps ++ [.rebuild], List.prefix_refl _, ?_⟩
    rw [run_append]
    rfl

theorem opened_coherent (builtins : Bool) :
    (opened builtins).Coherent (Past (opened builtins) []) := by
  cases builtins with
  | false => exact coherent_empty _
  | true =>
    have added := (coherent_empty fun _ => False).add Builtins.key Builtins.text true
    refine added.rebuild.mono fun index h => ⟨[], List.prefix_refl [], ?_⟩
    exact h.resolve_left id

/-- Every run keeps a workspace coherent. -/
theorem run_coherent (builtins : Bool) (steps : List Step) :
    ((opened builtins).run steps).Coherent (Past (opened builtins) steps) := by
  induction steps using List.reverseRecOn with
  | nil => exact opened_coherent builtins
  | append_singleton steps step ih =>
    have before := ih.mono fun index h => h.append step
    rw [run_append]
    cases step with
    | add key text isBuiltin => exact before.add key text isBuiltin
    | replace key text isBuiltin => exact before.add key text isBuiltin
    | remove key => exact before.remove key
    | rebuild => exact ih.rebuild.mono fun index h => .rebuild h

/-! ## Sites that refer back -/

/-- The identities of the sites of the present documents that refer back. -/
def selfReferences (w : Workspace) : List NodeId :=
  w.documents.flatMap fun d => d.revision.tree.selfReferences d.revision.id

/-- The identities of what is given to directives of the present documents that refer back. -/
def selfGiven (w : Workspace) : List NodeId :=
  w.documents.flatMap fun d => d.revision.tree.selfGiven d.revision.id

/-- What is off in a workspace: the sites that refer back. -/
def selfOff (w : Workspace) : Off := ⟨w.selfReferences, w.selfGiven⟩

theorem Coherent.ordered (h : w.Coherent past) {d : OpenDocument} (hd : d ∈ w.documents) :
    d.revision.tree.outline.tokens.Pairwise Token.Before := by
  obtain ⟨text, ht⟩ := h.parsed d hd
  rw [ht]
  exact parse_leaves_before d.source text

/-- An identity is listed for the document whose revision it names. -/
theorem Coherent.mem_siteIds (h : w.Coherent past) {d : OpenDocument} (hd : d ∈ w.documents)
    (p : Site → Bool) {id : NodeId} (revision : id.revision = d.revision.id) :
    (id ∈ w.documents.flatMap fun d => d.revision.tree.siteIds p d.revision.id) ↔
      id ∈ d.revision.tree.siteIds p d.revision.id := by
  constructor
  · intro hm
    obtain ⟨e, he, hm⟩ := List.mem_flatMap.1 hm
    obtain ⟨site, -, same⟩ := List.mem_map.1 hm
    have revisions : d.revision.id = e.revision.id := by
      rw [← revision, ← same]
      rfl
    rwa [List.inj_on_of_nodup_map h.revisions hd he revisions]
  · exact fun hm => List.mem_flatMap.2 ⟨d, hd, hm⟩

theorem Coherent.mem_selfReferences (h : w.Coherent past) {d : OpenDocument}
    (hd : d ∈ w.documents) {site : Site} (hs : site ∈ d.revision.tree.sites) :
    site.node.id d.revision.id ∈ w.selfReferences ↔ site.refersBack = true := by
  rw [← Document.mem_selfReferences (h.ordered hd) d.revision.id hs]
  exact h.mem_siteIds hd _ rfl

theorem Coherent.mem_selfGiven (h : w.Coherent past) {d : OpenDocument}
    (hd : d ∈ w.documents) {site : Site} (hs : site ∈ d.revision.tree.sites) :
    site.node.id d.revision.id ∈ w.selfGiven ↔
      site.refersBack = true ∧ site.directive ≠ none := by
  rw [← Document.mem_selfGiven (h.ordered hd) d.revision.id hs]
  exact h.mem_siteIds hd _ rfl

/-! ## Inferences of a snapshot -/

/-- What a document was made by agrees with what the present index makes of it. -/
theorem agreeOff_of_madeBy {r : Registry} {database : Database} {present old : Index}
    {d : OpenDocument} (made : d.MadeBy r database present old) (registered : d.Registered r)
    (ordered : d.revision.tree.outline.tokens.Pairwise Token.Before) :
    (infer old d.revision).AgreeOff (d.revision.tree.selfOff d.revision.id)
      (infer present d.revision) :=
  infer_agreeOff ordered (made.consumed_agree registered) (made.types_agree registered)

/-- What a rebuild resolves a revision to. -/
def resolvedBy (w : Workspace) (r : Revision) : Inference :=
  (w.reusable.get? r.id).getD (infer w.presentIndex r)

/-- A database of the present documents that is made without reuse. -/
def freshDatabase (w : Workspace) : Database :=
  Database.build (w.documents.map OpenDocument.revision) {}

theorem Coherent.inferences_snapshot (h : w.Coherent past) :
    w.rebuild.database.inferences =
      (w.documents.map OpenDocument.revision).map fun r => (r.id, w.resolvedBy r) := by
  rw [h.inferences_rebuild, List.map_map]
  rfl

theorem Coherent.inferences_fresh (h : w.Coherent past) :
    w.freshDatabase.inferences =
      (w.documents.map OpenDocument.revision).map fun r => (r.id, infer w.presentIndex r) := by
  unfold freshDatabase
  rw [inferences_build h.revisions_map]
  rfl

/-- Behind a rebuild, every document is resolved by some index of the past or by the present one. -/
theorem Coherent.resolvedBy_eq (h : w.Coherent past) {d : OpenDocument} (hd : d ∈ w.documents) :
    ∃ old, (past old ∨ old = w.presentIndex) ∧ w.resolvedBy d.revision = infer old d.revision ∧
      (infer old d.revision).AgreeOff (d.revision.tree.selfOff d.revision.id)
        (infer w.presentIndex d.revision) := by
  have after := h.rebuild
  obtain ⟨old, hold, made⟩ := after.fresh d hd List.not_mem_nil
  refine ⟨old, hold, ?_, agreeOff_of_madeBy made (after.registered d hd) (after.ordered hd)⟩
  have found := made.inference
  rw [h.inferenceOf_rebuild hd] at found
  exact Option.some.inj found

theorem Coherent.rebuild_agreeOff (h : w.Coherent past) :
    w.rebuild.database.AgreeOff w.selfOff w.freshDatabase := by
  refine Database.agreeOff_of_inferences h.inferences_snapshot h.inferences_fresh fun r hr => ?_
  obtain ⟨d, hd, rfl⟩ := List.mem_map.1 hr
  obtain ⟨old, -, resolved, agree⟩ := h.resolvedBy_eq hd
  rw [resolved]
  exact agree.mono (fun id hid => List.mem_flatMap.2 ⟨d, hd, hid⟩)
    fun id hid => List.mem_flatMap.2 ⟨d, hd, hid⟩

/-! ## Snapshots of runs -/

/-- The workspace behind a run that ends with a rebuild. -/
def rebuiltRun (builtins : Bool) (steps : List Step) : Workspace :=
  (opened builtins).run (steps ++ [.rebuild])

theorem rebuiltRun_eq (builtins : Bool) (steps : List Step) :
    rebuiltRun builtins steps = ((opened builtins).run steps).rebuild := run_append _ _ _

theorem rebuiltRun_agreeOff (builtins : Bool) (steps : List Step) :
    (rebuiltRun builtins steps).database.AgreeOff (rebuiltRun builtins steps).selfOff
      (rebuiltRun builtins steps).freshDatabase := by
  rw [rebuiltRun_eq]
  exact (run_coherent builtins steps).rebuild_agreeOff

theorem rebuiltRun_coherent (builtins : Bool) (steps : List Step) :
    (rebuiltRun builtins steps).Coherent (Past (opened builtins) (steps ++ [.rebuild])) :=
  run_coherent builtins (steps ++ [.rebuild])

/-- However a workspace was edited, its snapshot resolves fields and selection sets as a database
made without reuse does, and so it does with argument lists, arguments and values that are not
given to a directive. -/
theorem rebuiltRun_resolves_fields (builtins : Bool) (steps : List Step) :
    let w := rebuiltRun builtins steps
    (∀ node, w.database.field? node = w.freshDatabase.field? node) ∧
    (∀ node, w.database.selection? node = w.freshDatabase.selection? node) ∧
    ∀ d ∈ w.documents, ∀ site ∈ d.revision.tree.sites, site.directive = none →
      let node := site.node.id d.revision.id
      w.database.argumentList? node = w.freshDatabase.argumentList? node ∧
      w.database.argument? node = w.freshDatabase.argument? node ∧
      w.database.valueType? node = w.freshDatabase.valueType? node ∧
      w.database.valueDefault? node = w.freshDatabase.valueDefault? node := by
  intro w
  have agree := rebuiltRun_agreeOff builtins steps
  refine ⟨agree.fields, agree.selections, fun d hd site hs outside => ?_⟩
  have kept : site.node.id d.revision.id ∉ w.selfGiven := fun given =>
    (((rebuiltRun_coherent builtins steps).mem_selfGiven hd hs).1 given).2 outside
  exact ⟨agree.argumentLists _ kept, agree.arguments _ kept, agree.valueTypes _ kept,
    agree.valueDefaults _ kept⟩

end Workspace

end GraphQL
