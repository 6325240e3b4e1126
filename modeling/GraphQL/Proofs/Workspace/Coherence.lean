import GraphQL.Proofs.Database.Index
import GraphQL.Proofs.Inference.Simulation
import GraphQL.Proofs.Workspace.Registry
import GraphQL.Workspace

/-! # Coherent workspaces

A workspace is *coherent* if its documents are told apart by source, revision and definition
numbers, all their definitions are registered, and the inference of every document that is not stale
was made by an index that still agrees with the present one on whatever the document consumes. -/

namespace GraphQL

set_option autoImplicit false

namespace OpenDocument

def entries (d : OpenDocument) : List (Definition × Nat) :=
  d.revision.tree.definitions.zip d.definitions

def Provides (d : OpenDocument) (name : Dependency) : Prop :=
  ∃ definition ∈ d.revision.tree.definitions, definition.product? = some name

/-- The definitions of a document are registered as its own. -/
structure Registered (r : Registry) (d : OpenDocument) : Prop where
  length : d.definitions.length = d.revision.tree.definitions.length
  below : ∀ id ∈ d.definitions, id < r.next
  entered : ∀ entry ∈ d.entries, r.Enters d.source entry

/-- The inference of a document was made by an index, consumes the types that it went through, and
the index agrees with the present one on everything that the document consumes. -/
structure MadeBy (r : Registry) (database : Database) (present old : Index) (d : OpenDocument) :
    Prop where
  inference : database.inferenceOf? d.revision.id = some (infer old d.revision)
  tracked : ∀ entry ∈ d.entries,
    ∀ type ∈ (infer old d.revision).referencedTypes.get (entry.1.node.id d.revision.id),
      entry.2 ∈ r.graph.consumersOf (.type type)
  agree : ∀ entry ∈ d.entries, ∀ name, entry.2 ∈ r.graph.consumersOf name → old.AgreeOn name present

variable {r r' : Registry} {d e : OpenDocument}

theorem mem_definitions_of_entry {entry : Definition × Nat} (h : entry ∈ d.entries) :
    entry.2 ∈ d.definitions := (List.of_mem_zip h).2

theorem Registered.entry_of_id (h : d.Registered r) {id : Nat} (hid : id ∈ d.definitions) :
    ∃ entry ∈ d.entries, entry.2 = id := by
  have ids : d.entries.map Prod.snd = d.definitions :=
    List.map_snd_zip (Nat.le_of_eq h.length)
  rw [← ids] at hid
  exact List.mem_map.1 hid

theorem Registered.entry_of_definition (h : d.Registered r) {definition : Definition}
    (hd : definition ∈ d.revision.tree.definitions) : ∃ entry ∈ d.entries, entry.1 = definition := by
  have definitions : d.entries.map Prod.fst = d.revision.tree.definitions :=
    List.map_fst_zip (Nat.le_of_eq h.length.symm)
  rw [← definitions] at hd
  exact List.mem_map.1 hd

/-- Documents of different sources share no number. -/
theorem Registered.disjoint (hd : d.Registered r) (he : e.Registered r) (other : d.source ≠ e.source)
    {id : Nat} (hid : id ∈ d.definitions) : id ∉ e.definitions := by
  intro hie
  obtain ⟨entry, hm, rfl⟩ := hd.entry_of_id hid
  obtain ⟨entry', hm', same⟩ := he.entry_of_id hie
  have owner := (hd.entered entry hm).owner
  rw [← same, (he.entered entry' hm').owner] at owner
  exact other (Option.some.inj owner).symm

theorem Registered.keep (h : d.Registered r) {ids : List Nat} (same : r.SameBut ids r')
    (next : r.next ≤ r'.next) (other : ∀ id ∈ d.definitions, id ∉ ids) : d.Registered r' where
  length := h.length
  below := fun id hid => Nat.lt_of_lt_of_le (h.below id hid) next
  entered := fun entry he => (h.entered entry he).keep same (other _ (mem_definitions_of_entry he))

/-- What a document was made by stays, where its consumers are kept and whatever it consumes is
provided as before. -/
theorem MadeBy.keep {database : Database} {present present' old : Index}
    (h : d.MadeBy r database present old) {ids : List Nat} (same : r.SameBut ids r')
    (other : ∀ id ∈ d.definitions, id ∉ ids)
    (agree : ∀ id ∈ d.definitions, ∀ name, id ∈ r.graph.consumersOf name →
      present.AgreeOn name present') : d.MadeBy r' database present' old where
  inference := h.inference
  tracked := fun entry he type ht =>
    (same.consumers _ (other _ (mem_definitions_of_entry he)) _).2 (h.tracked entry he type ht)
  agree := fun entry he name hn => by
    have hid := mem_definitions_of_entry he
    have before := (same.consumers _ (other _ hid) name).1 hn
    exact (h.agree entry he name before).trans (agree _ hid name before)

/-- On what a definition refers to, the index agrees with the present one. -/
theorem MadeBy.consumed_agree {database : Database} {present old : Index}
    (h : d.MadeBy r database present old) (registered : d.Registered r) :
    ∀ definition ∈ d.revision.tree.definitions, ∀ name ∈ definition.consumed,
      old.AgreeOn name present := by
  intro definition hm name hn
  obtain ⟨entry, he, rfl⟩ := registered.entry_of_definition hm
  exact h.agree entry he name ((registered.entered entry he).consumed name hn)

/-- So it does on the types that it resolved a definition through. -/
theorem MadeBy.types_agree {database : Database} {present old : Index}
    (h : d.MadeBy r database present old) (registered : d.Registered r) :
    ∀ definition ∈ d.revision.tree.definitions,
      ∀ type ∈ (infer old d.revision).referencedTypes.get (definition.node.id d.revision.id),
        old.AgreeOn (.type type) present := by
  intro definition hm type ht
  obtain ⟨entry, he, rfl⟩ := registered.entry_of_definition hm
  exact h.agree entry he _ (h.tracked entry he type ht)

end OpenDocument

/-! ## Providers -/

namespace Index

theorem providers_eq_flatMap (name : Dependency) (documents : List OpenDocument) :
    providers name (documents.map OpenDocument.revision) =
      documents.flatMap fun d => providers name [d.revision] := by
  unfold providers filed
  rw [List.flatMap_map, List.filter_flatMap]
  simp only [List.flatMap_cons, List.flatMap_nil, List.append_nil]

theorem providers_eq_nil {name : Dependency} {d : OpenDocument} (h : ¬d.Provides name) :
    providers name [d.revision] = [] := by
  unfold providers filed
  rw [List.flatMap_cons, List.flatMap_nil, List.append_nil, List.filter_eq_nil_iff]
  intro entry he
  obtain ⟨definition, hd, rfl⟩ := List.mem_map.1 he
  rw [beq_iff_eq]
  exact fun own => h ⟨definition, hd, own⟩

end Index

namespace Workspace

/-- Putting a document changes no name that neither it nor the one in its place provides. -/
theorem providers_putDocument {name : Dependency} {d : OpenDocument} {documents : List OpenDocument}
    (new : ¬d.Provides name) (old : ∀ e ∈ documents, e.source = d.source → ¬e.Provides name) :
    Index.providers name ((putDocument d documents).map OpenDocument.revision) =
      Index.providers name (documents.map OpenDocument.revision) := by
  rw [Index.providers_eq_flatMap, Index.providers_eq_flatMap]
  unfold putDocument
  split
  · rw [List.flatMap_map]
    refine List.flatMap_congr fun e he => ?_
    by_cases same : e.source = d.source
    · rw [if_pos (by simpa using same), Index.providers_eq_nil new,
        Index.providers_eq_nil (old e he same)]
    · rw [if_neg (by simpa using same)]
  · rw [List.flatMap_append, List.flatMap_cons, List.flatMap_nil, Index.providers_eq_nil new]
    simp

/-- Removing a document changes no name that it does not provide. -/
theorem providers_filter {name : Dependency} {source : Nat} {documents : List OpenDocument}
    (old : ∀ e ∈ documents, e.source = source → ¬e.Provides name) :
    Index.providers name ((documents.filter fun d => d.source != source).map OpenDocument.revision) =
      Index.providers name (documents.map OpenDocument.revision) := by
  rw [Index.providers_eq_flatMap, Index.providers_eq_flatMap]
  induction documents with
  | nil => rfl
  | cons e documents ih =>
    rw [List.forall_mem_cons] at old
    by_cases same : e.source = source
    · rw [List.filter_cons_of_neg (by simpa using same), List.flatMap_cons,
        Index.providers_eq_nil (old.1 same), List.nil_append, ih old.2]
    · rw [List.filter_cons_of_pos (by simpa using same), List.flatMap_cons, List.flatMap_cons,
        ih old.2]

/-! ## The invariant -/

/-- The index that a database of the present documents would have. -/
def presentIndex (w : Workspace) : Index := Index.build (w.documents.map OpenDocument.revision)

/-- Documents are told apart and registered, and what is not stale is as good as new. The inferences
were made by indexes of the `past`. -/
structure Coherent (past : Index → Prop) (w : Workspace) : Prop where
  sources : (w.documents.map OpenDocument.source).Nodup
  revisions : (w.documents.map fun d => d.revision.id).Nodup
  numbered : ∀ d ∈ w.documents, d.revision.id < w.nextRevision
  parsed : ∀ d ∈ w.documents, ∃ text, d.revision.tree = (parse d.source text).tree
  regular : w.registry.graph.Regular
  registered : ∀ d ∈ w.documents, d.Registered w.registry
  fresh : ∀ d ∈ w.documents, d.source ∉ w.stale →
    ∃ old, past old ∧ d.MadeBy w.registry w.database w.presentIndex old

theorem coherent_empty (past : Index → Prop) : Coherent past {} where
  sources := List.nodup_nil
  revisions := List.nodup_nil
  numbered := fun _ h => nomatch h
  parsed := fun _ h => nomatch h
  regular := List.nodup_nil
  registered := fun _ h => nomatch h
  fresh := fun _ h => nomatch h

theorem mem_appendNew {α : Type} [BEq α] [LawfulBEq α] {list : List α} {a b : α} :
    b ∈ appendNew list a ↔ b ∈ list ∨ b = a := by
  unfold appendNew
  split
  · next h =>
    have : a ∈ list := by simpa using h
    exact ⟨Or.inl, fun hb => hb.elim id fun e => e ▸ this⟩
  · rw [List.mem_append, List.mem_singleton]

theorem mem_foldl_appendNew {α : Type} [BEq α] [LawfulBEq α] {list new : List α} {b : α} :
    b ∈ new.foldl appendNew list ↔ b ∈ list ∨ b ∈ new := by
  induction new generalizing list with
  | nil => simp
  | cons a new ih => rw [List.foldl_cons, ih, mem_appendNew, List.mem_cons, or_assoc]

variable {past : Index → Prop} {w : Workspace}

theorem documentOf_eq_some {documents : List OpenDocument}
    (sources : (documents.map OpenDocument.source).Nodup) {d : OpenDocument} (hd : d ∈ documents) :
    documents.find? (fun e => e.source == d.source) = some d := by
  induction documents with
  | nil => cases hd
  | cons e documents ih =>
    rw [List.map_cons, List.nodup_cons] at sources
    rcases List.mem_cons.1 hd with rfl | hd
    · rw [List.find?_cons_of_pos (by simp)]
    · have other : e.source ≠ d.source := fun same =>
        sources.1 (same ▸ List.mem_map_of_mem hd)
      rw [List.find?_cons_of_neg (by simpa using other), ih sources.2 hd]

theorem mem_stale_of_owner {definitions : List Nat} {edited : Text} {d : OpenDocument}
    (hd : w.documentOf? d.source = some d) {id : Nat} (hid : id ∈ definitions)
    (owner : w.registry.owners.get? id = some d.source) :
    d.source ∈ (w.markStale definitions edited).1.stale := by
  show d.source ∈ ((w.ownersOf definitions).map OpenDocument.source).foldl appendNew w.stale
  refine mem_foldl_appendNew.2 (.inr (List.mem_map_of_mem ?_))
  refine List.mem_filterMap.2 ⟨id, hid, ?_⟩
  rw [owner, Option.bind_some, hd]

/-! ## Dropping the old version of a document -/

def definitionsOf (w : Workspace) (source : Nat) : List Nat :=
  ((w.documentOf? source).map OpenDocument.definitions).getD []

theorem Coherent.definitionsOf (h : w.Coherent past) {d : OpenDocument} (hd : d ∈ w.documents) :
    w.definitionsOf d.source = d.definitions := by
  unfold Workspace.definitionsOf documentOf?
  rw [documentOf_eq_some h.sources hd, Option.map_some, Option.getD_some]

theorem Coherent.not_mem_definitionsOf (h : w.Coherent past) {d : OpenDocument}
    (hd : d ∈ w.documents) {source : Nat} (other : d.source ≠ source) :
    ∀ id ∈ d.definitions, id ∉ w.definitionsOf source := by
  intro id hid
  unfold Workspace.definitionsOf
  cases he : w.documentOf? source with
  | none => exact List.not_mem_nil
  | some e =>
    have found : e.source = source := by simpa using List.find?_some he
    have mem : e ∈ w.documents := List.mem_of_find?_eq_some he
    exact (h.registered d hd).disjoint (h.registered e mem) (found ▸ other) hid

theorem Coherent.dropDefinitions (h : w.Coherent past) (source : Nat) :
    Registry.Dropped (w.definitionsOf source) w.registry (w.dropDefinitions source).1 []
      (w.dropDefinitions source).2 := by
  unfold Workspace.dropDefinitions Workspace.definitionsOf
  cases w.documentOf? source with
  | none => exact Registry.unregisterAll_dropped [] h.regular
  | some document => exact Registry.unregisterAll_dropped document.definitions h.regular

/-- An edit that registers a document as before and does not mark it reaches none of its
definitions. -/
theorem Coherent.not_reached (h : w.Coherent past) (edited : Workspace) {key : Text}
    {ids reached : List Nat} {d : OpenDocument} (before : d ∈ w.documents)
    (after : d ∈ edited.documents) (sources : (edited.documents.map OpenDocument.source).Nodup)
    (same : w.registry.SameBut ids edited.registry) (apart : ∀ id ∈ d.definitions, id ∉ ids)
    (unmarked : d.source ∉ (edited.markStale reached key).1.stale) :
    ∀ id ∈ d.definitions, id ∉ reached := by
  intro id hid hr
  obtain ⟨entry, he, rfl⟩ := (h.registered d before).entry_of_id hid
  have owner := ((h.registered d before).entered entry he).owner
  rw [← same.owners _ (apart _ hid)] at owner
  exact unmarked (mem_stale_of_owner (documentOf_eq_some sources after) hr owner)

/-- Who consumes what a source provides is stale when the source is dropped. -/
theorem Coherent.not_provides (h : w.Coherent past) {source : Nat} {d e : OpenDocument}
    (hd : d ∈ w.documents) (other : d.source ≠ source) (he : e ∈ w.documents)
    (same : e.source = source) {id : Nat} (hid : id ∈ d.definitions)
    (fresh : id ∉ (w.dropDefinitions source).2) {name : Dependency}
    (consumes : id ∈ w.registry.graph.consumersOf name) : ¬e.Provides name := by
  rintro ⟨definition, hdef, product⟩
  obtain ⟨entry, hentry, rfl⟩ := (h.registered e he).entry_of_definition hdef
  have produced := ((h.registered e he).entered entry hentry).product name product
  have dropped : entry.2 ∈ w.definitionsOf source := by
    rw [← same, h.definitionsOf he]
    exact OpenDocument.mem_definitions_of_entry hentry
  exact fresh ((h.dropDefinitions source).reached entry.2 dropped name produced id consumes
    (h.not_mem_definitionsOf hd other id hid))

/-! ## Removing -/

/-- A workspace without the document of a source. -/
def without (w : Workspace) (source : Nat) : Workspace :=
  { w with
    registry := (w.dropDefinitions source).1
    documents := w.documents.filter fun d => d.source != source
    stale := w.stale.filter fun s => s != source }

theorem mem_without {source : Nat} {d : OpenDocument} :
    d ∈ (w.without source).documents ↔ d ∈ w.documents ∧ d.source ≠ source := by simp [without]

/-- Removing leaves a workspace without the document, with what depended on it marked, or changes
nothing. -/
theorem remove_cases (w : Workspace) (key : Text) :
    w.document? key = none ∧ w.remove key = (w, []) ∨
      ∃ document, w.document? key = some document ∧
        w.remove key = (w.without document.source).markStale
          (w.dropDefinitions document.source).2 key := by
  unfold Workspace.remove
  cases hdoc : w.document? key with
  | none => exact .inl ⟨rfl, rfl⟩
  | some document =>
    obtain ⟨source, -, found⟩ := Option.bind_eq_some_iff.1 hdoc
    obtain rfl : document.source = source := by simpa using List.find?_some found
    have drop : w.dropDefinitions document.source =
        w.registry.unregisterAll document.definitions := by
      unfold Workspace.dropDefinitions
      rw [found]
    refine .inr ⟨document, rfl, ?_⟩
    unfold Workspace.without
    rw [drop]

theorem Coherent.remove (h : w.Coherent past) (key : Text) : (w.remove key).1.Coherent past := by
  rcases w.remove_cases key with ⟨-, eq⟩ | ⟨document, -, eq⟩
  · rw [eq]
    exact h
  · rw [eq]
    generalize document.source = source
    have dropped := h.dropDefinitions source
    have kept {d : OpenDocument} (hd : d ∈ (w.without source).documents) :
        d ∈ w.documents ∧ d.source ≠ source := mem_without.1 hd
    have sources : ((w.without source).documents.map OpenDocument.source).Nodup :=
      h.sources.sublist (List.filter_sublist.map _)
    refine ⟨sources, h.revisions.sublist (List.filter_sublist.map _),
      fun d hd => h.numbered d (kept hd).1, fun d hd => h.parsed d (kept hd).1, dropped.regular,
      fun d hd => ?_, fun d hd fresh => ?_⟩
    · exact (h.registered d (kept hd).1).keep dropped.same (Nat.le_of_eq dropped.next.symm)
        (h.not_mem_definitionsOf (kept hd).1 (kept hd).2)
    · obtain ⟨hm, other⟩ := kept hd
      have apart := h.not_mem_definitionsOf hm other
      have before : d.source ∉ w.stale := fun hs =>
        fresh (mem_foldl_appendNew.2 (.inl (List.mem_filter.2 ⟨hs, by simpa using other⟩)))
      obtain ⟨old, hold, made⟩ := h.fresh d hm before
      refine ⟨old, hold, made.keep dropped.same apart fun id hid name consumes => ?_⟩
      have untouched :=
        h.not_reached (w.without source) hm hd sources dropped.same apart fresh id hid
      refine Index.build_agreeOn (providers_filter fun e he same => ?_).symm
      exact h.not_provides hm other he same hid untouched consumes

/-! ## Adding -/

theorem mem_putDocument {document d : OpenDocument} {documents : List OpenDocument}
    (h : d ∈ putDocument document documents) :
    d = document ∨ d ∈ documents ∧ d.source ≠ document.source := by
  unfold putDocument at h
  split at h
  · obtain ⟨e, he, rfl⟩ := List.mem_map.1 h
    by_cases same : e.source = document.source
    · exact .inl (if_pos (by simpa using same))
    · rw [if_neg (by simpa using same)]
      exact .inr ⟨he, same⟩
  · next absent =>
    rcases List.mem_append.1 h with he | he
    · refine .inr ⟨he, fun same => absent (List.any_eq_true.2 ⟨d, he, by simpa using same⟩)⟩
    · exact .inl (List.mem_singleton.1 he)

theorem sources_putDocument {document : OpenDocument} {documents : List OpenDocument}
    (h : (documents.map OpenDocument.source).Nodup) :
    ((putDocument document documents).map OpenDocument.source).Nodup := by
  unfold putDocument
  split
  · have same : documents.map (OpenDocument.source ∘ fun d =>
        if d.source == document.source then document else d) = documents.map OpenDocument.source := by
      refine List.map_congr_left fun d _ => ?_
      by_cases hd : d.source = document.source <;> simp [hd]
    rw [List.map_map, same]
    exact h
  · next absent =>
    rw [List.map_append, List.map_cons, List.map_nil, List.nodup_append]
    refine ⟨h, by simp, fun a ha b hb same => absent ?_⟩
    obtain ⟨d, hd, rfl⟩ := List.mem_map.1 ha
    refine List.any_eq_true.2 ⟨d, hd, ?_⟩
    rw [same, List.mem_singleton.1 hb]
    exact beq_self_eq_true _

theorem revisions_putDocument {document : OpenDocument} {documents : List OpenDocument}
    (sources : (documents.map OpenDocument.source).Nodup)
    (revisions : (documents.map fun d => d.revision.id).Nodup)
    (new : ∀ d ∈ documents, d.revision.id ≠ document.revision.id) :
    ((putDocument document documents).map fun d => d.revision.id).Nodup := by
  unfold putDocument
  split
  · rw [List.map_map]
    have apart := (List.pairwise_map.1 sources).and (List.pairwise_map.1 revisions)
    refine List.pairwise_map.2 (apart.imp_of_mem fun {a b} ha hb h => ?_)
    show (if a.source == document.source then document else a).revision.id ≠
      (if b.source == document.source then document else b).revision.id
    by_cases ha' : a.source = document.source
    · have hb' : b.source ≠ document.source := fun e => h.1 (ha'.trans e.symm)
      rw [if_pos (by simpa using ha'), if_neg (by simpa using hb')]
      exact (new b hb).symm
    · rw [if_neg (by simpa using ha')]
      by_cases hb' : b.source = document.source
      · rw [if_pos (by simpa using hb')]
        exact new a ha
      · rw [if_neg (by simpa using hb')]
        exact h.2
  · rw [List.map_append, List.map_cons, List.map_nil, List.nodup_append]
    refine ⟨revisions, by simp, fun a ha b hb same => ?_⟩
    obtain ⟨d, hd, rfl⟩ := List.mem_map.1 ha
    exact new d hd (same.trans (List.mem_singleton.1 hb))

/-- The document that an addition puts. -/
def addedDocument (w : Workspace) (key text : Text) (isBuiltin : Bool) : OpenDocument :=
  let source := (w.sources.intern key).2
  let parsed := parse source text
  { key, source, text, isBuiltin
    revision := ⟨w.nextRevision, parsed.tree⟩
    tokenCount := parsed.tokens.size
    diagnostics := parsed.diagnostics
    definitions := List.range' (w.dropDefinitions source).1.next parsed.tree.definitions.length }

theorem add_eq (w : Workspace) (key text : Text) (isBuiltin : Bool) :
    (w.add key text isBuiltin).1 =
      let source := (w.sources.intern key).2
      let document := w.addedDocument key text isBuiltin
      let dropped := w.dropDefinitions source
      let registered := dropped.1.registerAll source document.revision.tree.definitions dropped.2
      let edited : Workspace :=
        { w with
          sources := (w.sources.intern key).1
          documents := putDocument document w.documents
          registry := registered.1
          nextRevision := w.nextRevision + 1 }
      { edited with stale := appendNew (edited.markStale registered.2 key).1.stale source } := rfl

theorem Coherent.added (h : w.Coherent past) (key text : Text) (isBuiltin : Bool) :
    let document := w.addedDocument key text isBuiltin
    let definitions := document.revision.tree.definitions
    let dropped := w.dropDefinitions document.source
    let registered := dropped.1.registerAll document.source definitions dropped.2
    Registry.Added document.source definitions dropped.1 registered.1 dropped.2 registered.2 :=
  Registry.registerAll_added _ _ _ (h.dropDefinitions _).regular

/-- The definitions that are added get the numbers that come next. -/
theorem Coherent.definitions_addedDocument (h : w.Coherent past) (key text : Text)
    (isBuiltin : Bool) :
    let document := w.addedDocument key text isBuiltin
    document.definitions =
      List.range' w.registry.next document.revision.tree.definitions.length := by
  intro document
  rw [← (h.dropDefinitions document.source).next]
  rfl

theorem Coherent.next_add (h : w.Coherent past) (key text : Text) (isBuiltin : Bool) :
    (w.add key text isBuiltin).1.registry.next = w.registry.next +
      (w.addedDocument key text isBuiltin).revision.tree.definitions.length := by
  rw [← (h.dropDefinitions (w.addedDocument key text isBuiltin).source).next]
  exact (h.added key text isBuiltin).next

/-- What an addition does not drop or add is registered as before. -/
theorem Coherent.same_add (h : w.Coherent past) (key text : Text) (isBuiltin : Bool) :
    let document := w.addedDocument key text isBuiltin
    w.registry.SameBut (w.definitionsOf document.source ++ document.definitions)
      (w.add key text isBuiltin).1.registry := by
  intro document
  have dropped := (h.dropDefinitions document.source).same
  have added := (h.added key text isBuiltin).same
  exact (dropped.mono fun id hid => List.mem_append_left _ hid).trans
    (added.mono fun id hid => List.mem_append_right _ hid)

/-- A document of another source keeps its numbers. -/
theorem Coherent.apart_add (h : w.Coherent past) (key text : Text) (isBuiltin : Bool)
    {d : OpenDocument} (hd : d ∈ w.documents)
    (other : d.source ≠ (w.addedDocument key text isBuiltin).source) :
    let document := w.addedDocument key text isBuiltin
    ∀ id ∈ d.definitions, id ∉ w.definitionsOf document.source ++ document.definitions := by
  intro document id hid hm
  rcases List.mem_append.1 hm with hm | hm
  · exact h.not_mem_definitionsOf hd other id hid hm
  · rw [h.definitions_addedDocument key text isBuiltin] at hm
    have below := (h.registered d hd).below id hid
    have above := (List.mem_range'_1.1 hm).1
    omega

theorem Coherent.registered_add (h : w.Coherent past) (key text : Text) (isBuiltin : Bool)
    {d : OpenDocument} (hd : d ∈ (w.add key text isBuiltin).1.documents) :
    d.Registered (w.add key text isBuiltin).1.registry := by
  have next := h.next_add key text isBuiltin
  have numbers := h.definitions_addedDocument key text isBuiltin
  rcases mem_putDocument hd with rfl | ⟨hd, other⟩
  · refine ⟨List.length_range', fun id hid => ?_, (h.added key text isBuiltin).entered⟩
    rw [next]
    exact (List.mem_range'_1.1 (numbers ▸ hid)).2
  · refine (h.registered d hd).keep (h.same_add key text isBuiltin) ?_
      (h.apart_add key text isBuiltin hd other)
    rw [next]
    exact Nat.le_add_right _ _

theorem Coherent.add (h : w.Coherent past) (key text : Text) (isBuiltin : Bool) :
    (w.add key text isBuiltin).1.Coherent past := by
  have added := h.added key text isBuiltin
  have registered {d : OpenDocument} := h.registered_add key text isBuiltin (d := d)
  have apart {d : OpenDocument} := h.apart_add key text isBuiltin (d := d)
  rw [add_eq]
  extract_lets source document before entered edited
  have same : w.registry.SameBut (w.definitionsOf source ++ document.definitions)
    edited.registry := h.same_add key text isBuiltin
  have sources : (edited.documents.map OpenDocument.source).Nodup := sources_putDocument h.sources
  refine ⟨sources, ?_, ?_, ?_, added.regular, fun d hd => registered hd, ?_⟩
  · refine revisions_putDocument h.sources h.revisions fun d hd same => ?_
    have below := h.numbered d hd
    rw [same] at below
    exact Nat.lt_irrefl _ below
  · intro d hd
    rcases mem_putDocument hd with rfl | ⟨hd, -⟩
    · exact Nat.lt_succ_self _
    · exact Nat.lt_succ_of_lt (h.numbered d hd)
  · intro d hd
    rcases mem_putDocument hd with rfl | ⟨hd, -⟩
    · exact ⟨text, rfl⟩
    · exact h.parsed d hd
  · intro d hd fresh
    rcases mem_putDocument hd with rfl | ⟨hm, other⟩
    · exact absurd (mem_appendNew.2 (.inr rfl)) fresh
    · have unmarked : d.source ∉ (edited.markStale entered.2 key).1.stale := fun hs =>
        fresh (mem_appendNew.2 (.inl hs))
      have notBefore : d.source ∉ w.stale := fun hs => unmarked (mem_foldl_appendNew.2 (.inl hs))
      obtain ⟨old, hold, made⟩ := h.fresh d hm notBefore
      refine ⟨old, hold, made.keep same (apart hm other) fun id hid name consumes => ?_⟩
      have untouched := h.not_reached edited hm hd sources same (apart hm other) unmarked id hid
      refine Index.build_agreeOn (providers_putDocument ?_ fun e he hs => ?_).symm
      · rintro ⟨definition, hdef, product⟩
        refine untouched (added.reached definition hdef name product id ?_)
        exact ((h.dropDefinitions source).same.consumers id
          (h.not_mem_definitionsOf hm other id hid) name).2 consumes
      · exact h.not_provides hm other he hs hid (fun hr => untouched (added.grown id hr)) consumes

end Workspace

end GraphQL
