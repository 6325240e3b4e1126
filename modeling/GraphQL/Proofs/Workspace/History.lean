import Mathlib.Data.List.Infix
import GraphQL.Proofs.Inference.Footprint
import GraphQL.Proofs.Inference.Referenced
import GraphQL.Proofs.Workspace.Edges

/-! # Edits behind different histories

Two runs may reach the same documents in different ways. What a further edit invalidates depends on
the edges of the graph, and these on what the snapshots of a run resolved its documents through. An
edge for a type that a definition is no longer resolved through stays until the document is read
anew, and the run that has it invalidates more than one that has not, `leftoverEdge_invalidates`.

* `Matched.answer`: where every definition has a match that consumes no less, an edit gives no fewer
  keys,
* `Traced.matched`: a definition that has no such edges has a match in every workspace of the same
  texts,
* `steady_edits_alike`: runs without such edges are alike. -/

namespace GraphQL

set_option autoImplicit false

namespace OpenDocument

variable {d d' : OpenDocument}

theorem AsRead.isRead (h : d.AsRead) : d.revision.IsRead :=
  ⟨d.source, d.text, h.tree⟩

/-- Documents of the same text have the same definitions up to spans. -/
theorem AsRead.definition (h : d.AsRead) (h' : d'.AsRead)
    (text : d'.text = d.text) {definition : Definition}
    (hm : definition ∈ d.revision.tree.definitions) :
    ∃ definition' ∈ d'.revision.tree.definitions,
      definition'.mapSpans (fun _ => Span.nowhere) = definition.mapSpans fun _ => Span.nowhere := by
  have same := parse_placeless d.source d'.source d.text
  rw [← h.tree, ← text, ← h'.tree] at same
  have there := List.mem_map_of_mem (f := Definition.mapSpans fun _ => Span.nowhere) hm
  rw [show d.revision.tree.definitions.map _ = _ from congrArg Document.definitions same] at there
  exact List.mem_map.1 there

end OpenDocument

namespace Workspace

/-- The keys that an edit gives. A rebuild gives none. -/
def answer (w : Workspace) : Step → List Text
  | .add key text isBuiltin => (w.add key text isBuiltin).2
  | .replace key text isBuiltin => (w.add key text isBuiltin).2
  | .remove key => (w.remove key).2
  | .rebuild => []

/-- The documents by key, in order. -/
def texts (w : Workspace) : List (Text × Text) := w.documents.map fun d => (d.key, d.text)

variable {seen seen' : Database → Prop} {past past' : Index → Prop} {w w' : Workspace}

/-! ## Matching definitions -/

/-- A definition of one workspace has a match in another: one in the document under the same key
that provides the same and consumes no less. -/
structure Matches (w w' : Workspace) (id id' : Nat) : Prop where
  placed : ∃ d ∈ w.documents, ∃ d' ∈ w'.documents, d'.key = d.key ∧
    id ∈ d.definitions ∧ id' ∈ d'.definitions
  product : w'.registry.graph.products.get? id' = w.registry.graph.products.get? id
  consumers : ∀ name, id ∈ w.registry.graph.consumersOf name →
    id' ∈ w'.registry.graph.consumersOf name

/-- Every definition has a match. -/
def Matched (w w' : Workspace) : Prop :=
  ∀ d ∈ w.documents, ∀ id ∈ d.definitions, ∃ id', w.Matches w' id id'

/-- A consumer is a definition of a document. -/
theorem Consistent.consumer_known (h : w.Consistent) {id : Nat} {name : Dependency}
    (hc : id ∈ w.registry.graph.consumersOf name) : ∃ d ∈ w.documents, id ∈ d.definitions := by
  obtain ⟨source, definition, d, hd, -, he⟩ := h.mirrors.consumer id name hc
  exact ⟨d, hd, OpenDocument.mem_definitions_of_entry he⟩

/-- Edges from a definition are followed from its match. -/
theorem Matched.leads (h : w.Matched w') (consistent : w.Consistent) {start start' id : Nat}
    (hs : w.Matches w' start start') (leads : w.registry.graph.Leads start id) :
    ∃ id', w.Matches w' id id' ∧ w'.registry.graph.Leads start' id' := by
  induction leads with
  | refl => exact ⟨start', hs, .refl⟩
  | tail _ edge ih =>
    obtain ⟨middle', hm, leads⟩ := ih
    obtain ⟨name, produced, consumes⟩ := Graph.mem_dependents.1 edge
    obtain ⟨d, hd, hid⟩ := consistent.consumer_known consumes
    obtain ⟨id', hi⟩ := h d hd _ hid
    have edge' := Graph.mem_dependents.2
      ⟨name, hm.product.trans produced, hi.consumers name consumes⟩
    exact ⟨id', hi, leads.tail edge'⟩

/-- Where an edit touches a definition, it touches a match of it. -/
theorem Matched.touches (h : w.Matched w') (consistent : w.Consistent) (coherent : w.Coherent past)
    (consistent' : w'.Consistent) (coherent' : w'.Coherent past') {key : Text}
    {definitions definitions' : List Definition}
    (products : definitions'.map Definition.product? = definitions.map Definition.product?)
    {start : Nat} (touched : w.Touches key definitions start) :
    ∃ start', w.Matches w' start start' ∧ w'.Touches key definitions' start' := by
  rcases touched with ⟨d, found, hid⟩ | ⟨definition, hm, name, product, consumes⟩
  · obtain ⟨hd, rfl⟩ := (consistent.document_eq_some_iff coherent).1 found
    obtain ⟨start', hs⟩ := h d hd start hid
    obtain ⟨e, he, e', he', same, hid', own⟩ := hs.placed
    obtain rfl := coherent.document_of_number hd he hid hid'
    exact ⟨start', hs, .inl ⟨e', (consistent'.document_eq_some_iff coherent').2 ⟨he', same⟩, own⟩⟩
  · obtain ⟨d, hd, hid⟩ := consistent.consumer_known consumes
    obtain ⟨start', hs⟩ := h d hd start hid
    have provided : some name ∈ definitions'.map Definition.product? :=
      products ▸ product ▸ List.mem_map_of_mem hm
    obtain ⟨definition', hm', product'⟩ := List.mem_map.1 provided
    exact ⟨start', hs, .inr ⟨definition', hm', name, product', hs.consumers name consumes⟩⟩

/-- Where every definition has a match, an edit affects no less. -/
theorem Matched.affects (h : w.Matched w') (consistent : w.Consistent) (coherent : w.Coherent past)
    (consistent' : w'.Consistent) (coherent' : w'.Coherent past') {key k : Text}
    {definitions definitions' : List Definition}
    (products : definitions'.map Definition.product? = definitions.map Definition.product?)
    (affected : w.Affects key definitions k) : w'.Affects key definitions' k := by
  obtain ⟨d, hd, rfl, id, hid, start, touched, leads⟩ := affected
  obtain ⟨start', hs, touched'⟩ :=
    h.touches consistent coherent consistent' coherent' products touched
  obtain ⟨id', hi, leads'⟩ := h.leads consistent hs leads
  obtain ⟨e, he, e', he', same, hid', own⟩ := hi.placed
  obtain rfl := coherent.document_of_number hd he hid hid'
  exact ⟨e', he', same, id', own, start', touched', leads'⟩

/-- What a text provides does not depend on the number it is read under. -/
theorem products_eq (source source' : Int) (text : Text) :
    (parse source' text).tree.definitions.map Definition.product? =
      (parse source text).tree.definitions.map Definition.product? := by
  have same := congrArg (fun tree => tree.definitions.map Definition.product?)
    (parse_placeless source' source text)
  simpa only [Document.placeless, Document.mapSpans, List.map_map, Function.comp_def,
    Definition.product?_mapSpans] using same

theorem document_of_texts (texts : w'.texts = w.texts) {d : OpenDocument} (hd : d ∈ w.documents) :
    ∃ d' ∈ w'.documents, d'.key = d.key ∧ d'.text = d.text := by
  have listed : (d.key, d.text) ∈ w'.texts := texts ▸ List.mem_map_of_mem hd
  obtain ⟨d', hd', same⟩ := List.mem_map.1 listed
  exact ⟨d', hd', congrArg Prod.fst same, congrArg Prod.snd same⟩

/-- Where every definition has a match, every edit gives no fewer keys. -/
theorem Matched.answer (h : w.Matched w') (consistent : w.Consistent) (coherent : w.Coherent past)
    (consistent' : w'.Consistent) (coherent' : w'.Coherent past') (texts : w'.texts = w.texts)
    (edit : Step) {k : Text} (hk : k ∈ w.answer edit) : k ∈ w'.answer edit := by
  have added (key text : Text) (isBuiltin : Bool) (hk : k ∈ (w.add key text isBuiltin).2) :
      k ∈ (w'.add key text isBuiltin).2 := by
    rw [((consistent.add_affects coherent key text isBuiltin).1 k)] at hk
    rw [((consistent'.add_affects coherent' key text isBuiltin).1 k)]
    exact hk.imp_right (h.affects consistent coherent consistent' coherent' (products_eq _ _ text))
  cases edit with
  | add key text isBuiltin => exact added key text isBuiltin hk
  | replace key text isBuiltin => exact added key text isBuiltin hk
  | rebuild => cases hk
  | remove key =>
    have hk : k ∈ (w.remove key).2 := hk
    show k ∈ (w'.remove key).2
    cases found : w.document? key with
    | none =>
      rw [Workspace.remove, found] at hk
      cases hk
    | some d =>
      obtain ⟨hd, rfl⟩ := (consistent.document_eq_some_iff coherent).1 found
      obtain ⟨d', hd', same, -⟩ := document_of_texts texts hd
      rw [(consistent.remove_affects coherent hd).1 k] at hk
      rw [← same, (consistent'.remove_affects coherent' hd').1 k, same]
      exact hk.imp_right (h.affects consistent coherent consistent' coherent' rfl)

/-! ## Where every definition has a match -/

/-- Whatever a database that was seen resolved the documents through, a database that is made
without reuse resolves them through as well. -/
def Lasting (seen : Database → Prop) (w : Workspace) : Prop :=
  ∀ database, seen database → ∀ d ∈ w.documents, ∀ id name,
    ResolvedThrough database d id name → ResolvedThrough w.freshDatabase d id name

/-- The snapshot resolves the documents through whatever a database that is made without reuse
resolves them through. -/
def Complete (w : Workspace) : Prop :=
  ∀ d ∈ w.documents, ∀ id name,
    ResolvedThrough w.freshDatabase d id name → ResolvedThrough w.database d id name

theorem Coherent.inferenceOf_fresh (h : w.Coherent past) {d : OpenDocument}
    (hd : d ∈ w.documents) : w.freshDatabase.inferenceOf? d.revision.id =
      some (infer w.presentIndex d.revision) := by
  unfold Database.inferenceOf?
  rw [h.inferences_fresh]
  exact lookup_map_of_mem h.revisions_map _ (List.mem_map_of_mem hd)

theorem Coherent.resolvedThrough_fresh (h : w.Coherent past) {d : OpenDocument}
    (hd : d ∈ w.documents) (asRead : d.AsRead) {entry : Definition × Nat} (he : entry ∈ d.entries)
    {name : Dependency} : ResolvedThrough w.freshDatabase d entry.2 name ↔
      ∃ type ∈ (infer w.presentIndex d.revision).referencedTypes.get
        (entry.1.node.id d.revision.id), .type type = name := by
  constructor
  · rintro ⟨inference, resolved, entry', he', same, through⟩
    obtain rfl := Option.some.inj ((h.inferenceOf_fresh hd).symm.trans resolved)
    exact asRead.entry_eq he he' same ▸ through
  · exact fun through => ⟨_, h.inferenceOf_fresh hd, entry, he, rfl, through⟩

/-- Where nothing refers back, a snapshot of documents that are not stale is complete. -/
theorem Coherent.complete (h : w.Coherent past) (current : w.stale = [])
    (forth : ∀ d ∈ w.documents, ∀ site ∈ d.revision.tree.sites, site.refersBack = false) :
    w.Complete := by
  rintro d hd id name ⟨inference, resolved, through⟩
  obtain rfl := Option.some.inj ((h.inferenceOf_fresh hd).symm.trans resolved)
  obtain ⟨old, -, made⟩ := h.fresh d hd (current ▸ List.not_mem_nil)
  have registered := h.registered d hd
  have same := infer_eq_of_forward (h.ordered hd) (forth d hd) (made.consumed_agree registered)
    (made.types_agree registered)
  exact ⟨_, same ▸ made.inference, through⟩

/-- The index of a workspace, up to spans, is that of its texts. -/
theorem Traced.index_moved (h : w.Traced seen) :
    Index.Moved (fun _ => Span.nowhere) w.presentIndex
      (Index.build (w.texts.map fun entry => ⟨0, (parse 0 entry.2).tree.placeless⟩)) := by
  have moved := (Index.build_files (f := fun _ => Span.nowhere)
    (w.documents.map OpenDocument.revision) fun _ => 0).moved
  have revisions : (w.texts.map fun entry => (⟨0, (parse 0 entry.2).tree.placeless⟩ : Revision)) =
      (w.documents.map OpenDocument.revision).map fun r =>
        ⟨0, r.tree.mapSpans fun _ => Span.nowhere⟩ := by
    rw [texts, List.map_map, List.map_map]
    refine List.map_congr_left fun d hd => congrArg (Revision.mk 0) ?_
    exact (parse_placeless 0 d.source d.text).trans
      (congrArg Document.placeless (h.documents d hd).tree.symm)
  rw [revisions]
  exact moved

theorem Traced.matched (h : w.Traced seen) (consistent : w.Consistent) (coherent : w.Coherent past)
    (h' : w'.Traced seen') (consistent' : w'.Consistent) (coherent' : w'.Coherent past')
    (texts : w'.texts = w.texts) (lasting : w.Lasting seen) (complete : w'.Complete) :
    w.Matched w' := by
  intro d hd id hid
  obtain ⟨d', hd', key, text⟩ := document_of_texts texts hd
  have asRead := h.documents d hd
  have asRead' := h'.documents d' hd'
  obtain ⟨entry, he, rfl⟩ := (coherent.registered d hd).entry_of_id hid
  obtain ⟨definition', hm', same⟩ := asRead.definition asRead' text (List.of_mem_zip he).1
  obtain ⟨entry', he', rfl⟩ := (coherent'.registered d' hd').entry_of_definition hm'
  refine ⟨entry'.2, ⟨d, hd, d', hd', key, hid, OpenDocument.mem_definitions_of_entry he'⟩, ?_,
    fun name hc => ?_⟩
  · have entered : w.Entry d.source entry.1 entry.2 := ⟨d, hd, rfl, he⟩
    have entered' : w'.Entry d'.source entry'.1 entry'.2 := ⟨d', hd', rfl, he'⟩
    rw [consistent.mirrors.product _ _ _ entered, consistent'.mirrors.product _ _ _ entered',
      ← entry.1.product?_mapSpans fun _ => Span.nowhere, ← same, Definition.product?_mapSpans]
  · rw [h.consumers d hd entry he name] at hc
    rw [h'.consumers d' hd' entry' he' name]
    rcases hc with consumed | ⟨database, hs, through⟩
    · refine .inl ?_
      rwa [← entry'.1.consumed_mapSpans fun _ => Span.nowhere, same, Definition.consumed_mapSpans]
    · have fresh := lasting database hs d hd entry.2 name through
      obtain ⟨type, ht, own⟩ := (coherent.resolvedThrough_fresh hd asRead he).1 fresh
      have moved' := texts ▸ h'.index_moved
      have ht' := (referencedTypes_alike h.index_moved moved' asRead.isRead asRead'.isRead
        (List.of_mem_zip he).1 hm' same).2 ht
      have fresh' := (coherent'.resolvedThrough_fresh hd' asRead' he').2 ⟨type, ht', own⟩
      exact .inr ⟨w'.database, h'.present, complete d' hd' entry'.2 name fresh'⟩

/-! ## Steady runs -/

/-- No snapshot of a run resolved a document that is there at the end through a type that it is no
longer resolved through, and the last snapshot is complete. -/
structure Steady (builtins : Bool) (steps : List Step) : Prop where
  lasting : (rebuiltRun builtins steps).Lasting (Snapshot (opened builtins) (steps ++ [.rebuild]))
  complete : (rebuiltRun builtins steps).Complete

/-- Where nothing refers back, it is enough that no type is left over. -/
theorem Steady.of_forward {builtins : Bool} {steps : List Step}
    (lasting : (rebuiltRun builtins steps).Lasting
      (Snapshot (opened builtins) (steps ++ [.rebuild])))
    (forth : ∀ d ∈ (rebuiltRun builtins steps).documents, ∀ site ∈ d.revision.tree.sites,
      site.refersBack = false) : Steady builtins steps := by
  have current : (rebuiltRun builtins steps).stale = [] := by
    rw [rebuiltRun_eq]
    rfl
  exact ⟨lasting, (rebuiltRun_coherent builtins steps).complete current forth⟩

/-- What a database resolves the definitions of a document through. -/
def resolutions (database : Database) (d : OpenDocument) : List (Nat × Dependency) :=
  (database.inferenceOf? d.revision.id).toList.flatMap fun inference =>
    d.entries.flatMap fun entry =>
      (inference.referencedTypes.get (entry.1.node.id d.revision.id)).map fun type =>
        (entry.2, .type type)

theorem mem_resolutions {database : Database} {d : OpenDocument} {id : Nat} {name : Dependency} :
    (id, name) ∈ resolutions database d ↔ ResolvedThrough database d id name := by
  simp only [resolutions, ResolvedThrough, List.mem_flatMap, Option.mem_toList, List.mem_map,
    Prod.mk.injEq]
  refine exists_congr fun inference => and_congr_right fun _ => exists_congr fun entry =>
    and_congr_right fun _ => ?_
  constructor
  · rintro ⟨type, ht, rfl, same⟩
    exact ⟨rfl, type, ht, same⟩
  · rintro ⟨rfl, type, ht, same⟩
    exact ⟨type, ht, rfl, same⟩

theorem steady_iff {builtins : Bool} {steps : List Step} : Steady builtins steps ↔
    (∀ earlier ∈ (steps ++ [Step.rebuild]).inits, ∀ d ∈ (rebuiltRun builtins steps).documents,
      ∀ entry ∈ resolutions ((opened builtins).run earlier).database d,
        entry ∈ resolutions (rebuiltRun builtins steps).freshDatabase d) ∧
    ∀ d ∈ (rebuiltRun builtins steps).documents,
      ∀ entry ∈ resolutions (rebuiltRun builtins steps).freshDatabase d,
        entry ∈ resolutions (rebuiltRun builtins steps).database d := by
  constructor
  · rintro ⟨lasting, complete⟩
    refine ⟨fun earlier he d hd entry hm => ?_, fun d hd entry hm => ?_⟩
    · have snapshot : Snapshot (opened builtins) (steps ++ [Step.rebuild])
          ((opened builtins).run earlier).database := ⟨earlier, (List.mem_inits _ _).1 he, rfl⟩
      exact mem_resolutions.2 (lasting _ snapshot d hd _ _ (mem_resolutions.1 hm))
    · exact mem_resolutions.2 (complete d hd _ _ (mem_resolutions.1 hm))
  · rintro ⟨lasting, complete⟩
    refine ⟨?_, fun d hd id name through => ?_⟩
    · rintro _ ⟨earlier, before, rfl⟩ d hd id name through
      have he := (List.mem_inits _ _).2 before
      exact mem_resolutions.1 (lasting earlier he d hd _ (mem_resolutions.2 through))
    · exact mem_resolutions.1 (complete d hd _ (mem_resolutions.2 through))

instance (builtins : Bool) (steps : List Step) : Decidable (Steady builtins steps) :=
  decidable_of_iff _ steady_iff.symm

theorem rebuiltRun_consistent (builtins : Bool) (steps : List Step) :
    (rebuiltRun builtins steps).Consistent :=
  opened_run_consistent builtins (steps ++ [Step.rebuild])

theorem rebuiltRun_traced (builtins : Bool) (steps : List Step) :
    (rebuiltRun builtins steps).Traced (Snapshot (opened builtins) (steps ++ [.rebuild])) :=
  run_traced builtins (steps ++ [.rebuild])

/-- Behind a steady run, an edit invalidates no more than behind any other run to the same
documents. -/
theorem Steady.edits_least {builtins builtins' : Bool} {steps steps' : List Step}
    (steady : Steady builtins steps) (complete : (rebuiltRun builtins' steps').Complete)
    (texts : (rebuiltRun builtins' steps').texts = (rebuiltRun builtins steps).texts) (edit : Step)
    {k : Text} (hk : k ∈ (rebuiltRun builtins steps).answer edit) :
    k ∈ (rebuiltRun builtins' steps').answer edit := by
  have consistent := rebuiltRun_consistent builtins steps
  have coherent := rebuiltRun_coherent builtins steps
  have consistent' := rebuiltRun_consistent builtins' steps'
  have coherent' := rebuiltRun_coherent builtins' steps'
  have matched := (rebuiltRun_traced builtins steps).matched consistent coherent
    (rebuiltRun_traced builtins' steps') consistent' coherent' texts steady.lasting complete
  exact matched.answer consistent coherent consistent' coherent' texts edit hk

/-! ### Runs without rebuilds before their end -/

theorem database_run {steps : List Step} (edits : Step.rebuild ∉ steps) :
    ((opened false).run steps).database = {} := by
  induction steps using List.reverseRecOn with
  | nil => rfl
  | append_singleton steps step ih =>
    rw [List.mem_append, not_or, List.mem_singleton] at edits
    rw [run_append, ← ih edits.1]
    cases step with
    | add key text isBuiltin => rfl
    | replace key text isBuiltin => rfl
    | remove key =>
      rcases remove_cases ((opened false).run steps) key with ⟨-, eq⟩ | ⟨document, -, eq⟩
      · exact congrArg (fun edit => edit.1.database) eq
      · exact congrArg (fun edit => edit.1.database) eq
    | rebuild => exact absurd rfl edits.2

theorem steady_of_edits {steps : List Step} (edits : Step.rebuild ∉ steps) : Steady false steps := by
  have unresolved := database_run edits
  have fresh : (rebuiltRun false steps).database = (rebuiltRun false steps).freshDatabase := by
    have nothing : ((opened false).run steps).reusable = {} := by
      unfold Workspace.reusable
      rw [unresolved]
      refine congrArg Table.mk (List.filterMap_eq_nil_iff.2 fun d _ => ?_)
      split <;> rfl
    rw [rebuiltRun_eq]
    show Database.build _ ((opened false).run steps).reusable = _
    rw [nothing]
    rfl
  refine ⟨?_, fun d hd id name through => fresh ▸ through⟩
  rintro _ ⟨earlier, before, rfl⟩ d hd id name through
  rcases List.prefix_concat_iff.1 before with rfl | before
  · exact fresh ▸ through
  · obtain ⟨inference, found, -⟩ := through
    rw [database_run fun he => edits (before.subset he)] at found
    cases found

/-! ### Same edits behind different histories -/

/-- Behind steady runs to the same documents, every edit gives the same keys. -/
theorem steady_edits_alike {builtins builtins' : Bool} {steps steps' : List Step}
    (steady : Steady builtins steps) (steady' : Steady builtins' steps')
    (texts : (rebuiltRun builtins' steps').texts = (rebuiltRun builtins steps).texts) (edit : Step)
    (k : Text) : k ∈ (rebuiltRun builtins steps).answer edit ↔
      k ∈ (rebuiltRun builtins' steps').answer edit :=
  ⟨steady.edits_least steady'.complete texts edit,
    steady'.edits_least steady.complete texts.symm edit⟩

/-- The query is resolved twice, the second time through one more type. -/
def grown : List Step :=
  [.add "root" "type Query { a: A }" false, .add "q" "{ a { x } }" false, .rebuild,
    .add "a" "type A { x: B }" false]

def planted : List Step :=
  [.add "root" "type Query" false, .add "q" "{ a { x } }" false, .add "a" "type A { x: B }" false,
    .replace "root" "type Query { a: A }" false]

set_option maxRecDepth 100000 in
theorem grown_edits_alike :
    Steady false grown ∧ Steady false planted ∧
      (rebuiltRun false planted).texts = (rebuiltRun false grown).texts ∧
      ∀ edit k, k ∈ (rebuiltRun false grown).answer edit ↔
        k ∈ (rebuiltRun false planted).answer edit := by
  have steady : Steady false grown := by decide +kernel
  have steady' : Steady false planted := by decide +kernel
  have texts : (rebuiltRun false planted).texts = (rebuiltRun false grown).texts := by
    decide +kernel
  exact ⟨steady, steady', texts, steady_edits_alike steady steady' texts⟩

/-! ### A type that a query is no longer resolved through -/

/-- The query is resolved through `A`, and then through `B` in its place. -/
def retyped : List Step :=
  [.add "root" "type Query { a: A }" false, .add "q" "{ a { x } }" false, .rebuild,
    .replace "root" "type Query { a: B }" false]

def untouched : List Step :=
  [.add "root" "type Query { a: B }" false, .add "q" "{ a { x } }" false]

set_option maxRecDepth 100000 in
/-- The query still consumes `A`, which it would not if it had never been resolved through it. -/
theorem leftoverEdge_invalidates :
    ¬Steady false retyped ∧ Steady false untouched ∧
      (rebuiltRun false retyped).texts = (rebuiltRun false untouched).texts ∧
      (rebuiltRun false retyped).answer (.add "z" "type A { y: Int }" false) = ["q", "z"] ∧
      (rebuiltRun false untouched).answer (.add "z" "type A { y: Int }" false) = ["z"] := by
  decide +kernel

end Workspace

end GraphQL
