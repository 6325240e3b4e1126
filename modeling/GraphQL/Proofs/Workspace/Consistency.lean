import GraphQL.Proofs.Workspace.Entries
import GraphQL.Proofs.Workspace.Snapshot

/-! # Consistent workspaces

The parts of a workspace change together: the numbers of keys, the documents, the registry, the
stale marks and the snapshot. A workspace is *consistent* if they tell the same story: documents are
filed by the numbers of their keys, the registry mirrors their definitions, and only documents are
stale. Every edit and every rebuild keeps this.

`run_consistent` tells what holds of every workspace that a run from the empty one reaches. -/

namespace GraphQL

set_option autoImplicit false

/-! ## Numbers of keys -/

namespace SourceTable

variable {t : SourceTable}

/-- No key has two numbers. -/
def Regular (t : SourceTable) : Prop := t.keys.Nodup

theorem id_eq_some_iff {key : Text} {source : Nat} :
    t.id? key = some source ↔ ∃ i, t.keys.idxOf? key = some i ∧ i + 1 = source :=
  Option.map_eq_some_iff

theorem id_eq_some_iff_key (regular : t.Regular) {key : Text} {source : Nat} :
    t.id? key = some source ↔ t.key? source = some key := by
  rw [id_eq_some_iff]
  cases source with
  | zero => simp [key?]
  | succ i =>
    have found : t.key? (i + 1) = t.keys[i]? := by simp [key?]
    rw [found]
    constructor
    · rintro ⟨j, hj, same⟩
      obtain ⟨hlt, hkey, -⟩ := List.idxOf?_eq_some_iff.1 hj
      obtain rfl : j = i := Nat.succ.inj same
      rw [List.getElem?_eq_getElem hlt, hkey]
    · intro h
      obtain ⟨hlt, hkey⟩ := List.getElem?_eq_some_iff.1 h
      refine ⟨i, List.idxOf?_eq_some_iff.2 ⟨hlt, hkey, fun j hj same => ?_⟩, rfl⟩
      exact Nat.ne_of_lt hj ((List.Nodup.getElem_inj_iff regular).1 (same.trans hkey.symm))

theorem id_eq_none_iff {key : Text} : t.id? key = none ↔ key ∉ t.keys := by
  unfold id?
  rw [Option.map_eq_none_iff, List.idxOf?_eq_none_iff]

/-- A key that has a number keeps it. -/
theorem id_intern_of_id {key other : Text} {source : Nat} (h : t.id? other = some source) :
    (t.intern key).1.id? other = some source := by
  unfold intern
  split
  · exact h
  · obtain ⟨i, hi, rfl⟩ := id_eq_some_iff.1 h
    obtain ⟨hlt, hkey, first⟩ := List.idxOf?_eq_some_iff.1 hi
    refine id_eq_some_iff.2 ⟨i, List.idxOf?_eq_some_iff.2 ⟨?_, ?_, fun j hj => ?_⟩, rfl⟩
    · rw [List.length_append]
      omega
    · rw [List.getElem_append_left hlt]
      exact hkey
    · rw [List.getElem_append_left (Nat.lt_trans hj hlt)]
      exact first j hj

theorem id_intern (t : SourceTable) (key : Text) :
    (t.intern key).1.id? key = some (t.intern key).2 := by
  unfold intern
  split
  · next source h => exact h
  · next h =>
    have absent := id_eq_none_iff.1 h
    refine id_eq_some_iff.2 ⟨t.keys.length, List.idxOf?_eq_some_iff.2 ⟨by simp, by simp, ?_⟩, rfl⟩
    intro j hj
    rw [List.getElem_append_left hj]
    exact fun same => absent (same ▸ List.getElem_mem hj)

theorem Regular.intern (h : t.Regular) (key : Text) : (t.intern key).1.Regular := by
  unfold SourceTable.intern
  split
  · exact h
  · next absent =>
    refine List.nodup_append.2 ⟨h, by simp, fun a ha b hb same => ?_⟩
    rw [List.mem_singleton] at hb
    exact id_eq_none_iff.1 absent (hb ▸ same ▸ ha)

end SourceTable
namespace Workspace

/-! ## Documents -/

theorem mem_putDocument_iff {document d : OpenDocument} {documents : List OpenDocument} :
    d ∈ putDocument document documents ↔
      d = document ∨ d ∈ documents ∧ d.source ≠ document.source := by
  refine ⟨mem_putDocument, ?_⟩
  unfold putDocument
  rintro (rfl | ⟨hd, other⟩)
  · split
    · next there =>
      obtain ⟨e, he, same⟩ := List.any_eq_true.1 there
      exact List.mem_map.2 ⟨e, he, if_pos same⟩
    · exact List.mem_append_right _ List.mem_cons_self
  · split
    · exact List.mem_map.2 ⟨d, hd, if_neg (by simpa using other)⟩
    · exact List.mem_append_left _ hd

theorem documentOf_eq_some_iff {w : Workspace}
    (sources : (w.documents.map OpenDocument.source).Nodup) {source : Nat} {d : OpenDocument} :
    w.documentOf? source = some d ↔ d ∈ w.documents ∧ d.source = source := by
  constructor
  · intro h
    exact ⟨List.mem_of_find?_eq_some h, by simpa using List.find?_some h⟩
  · rintro ⟨hd, rfl⟩
    exact documentOf_eq_some sources hd

/-- The definitions of the present documents, with their sources and numbers. -/
def Entry (w : Workspace) (source : Nat) (definition : Definition) (id : Nat) : Prop :=
  ∃ d ∈ w.documents, d.source = source ∧ (definition, id) ∈ d.entries

/-! ## The invariant -/

/-- The parts of a workspace tell the same story. -/
structure Consistent (w : Workspace) : Prop where
  keys : w.sources.Regular
  filed : ∀ d ∈ w.documents, w.sources.id? d.key = some d.source
  mirrors : w.registry.Mirrors w.Entry
  stale : ∀ source ∈ w.stale, ∃ d ∈ w.documents, d.source = source

theorem consistent_empty : Consistent {} where
  keys := List.nodup_nil
  filed := fun _ h => nomatch h
  mirrors := Registry.mirrors_empty.congr fun _ _ _ =>
    ⟨fun h => h.elim, fun ⟨_, hd, _⟩ => nomatch hd⟩
  stale := fun _ h => nomatch h

variable {past : Index → Prop} {w : Workspace}

/-- The document under a key is the one filed by the number of the key. -/
theorem Consistent.source_of_key (h : w.Consistent) {d : OpenDocument} (hd : d ∈ w.documents)
    {key : Text} {source : Nat} (number : w.sources.id? key = some source) :
    d.source = source ↔ d.key = key := by
  have own := h.filed d hd
  constructor
  · rintro rfl
    rw [SourceTable.id_eq_some_iff_key h.keys] at own number
    exact Option.some.inj (own.symm.trans number)
  · rintro rfl
    exact Option.some.inj (own.symm.trans number)

/-- Sources that are marked behind an edit own documents. -/
theorem stale_markStale {definitions : List Nat} {edited : Text}
    (before : ∀ source ∈ w.stale, ∃ d ∈ w.documents, d.source = source) :
    ∀ source ∈ (w.markStale definitions edited).1.stale, ∃ d ∈ w.documents, d.source = source := by
  intro source hs
  rcases mem_foldl_appendNew.1 hs with hs | hs
  · exact before source hs
  · obtain ⟨d, hd, rfl⟩ := List.mem_map.1 hs
    obtain ⟨id, -, found⟩ := List.mem_filterMap.1 hd
    obtain ⟨owner, -, found⟩ := Option.bind_eq_some_iff.1 found
    exact ⟨d, List.mem_of_find?_eq_some found, rfl⟩

/-- What is left of the entries when a source is dropped: those of the other documents. -/
theorem Coherent.entry_dropped (h : w.Coherent past) {source s id : Nat} {definition : Definition} :
    (w.Entry s definition id ∧ id ∉ w.definitionsOf source) ↔
      ∃ d ∈ w.documents, d.source ≠ source ∧ d.source = s ∧ (definition, id) ∈ d.entries := by
  constructor
  · rintro ⟨⟨d, hd, own, he⟩, kept⟩
    refine ⟨d, hd, ?_, own, he⟩
    rintro rfl
    rw [h.definitionsOf hd] at kept
    exact kept (OpenDocument.mem_definitions_of_entry he)
  · rintro ⟨d, hd, other, own, he⟩
    exact ⟨⟨d, hd, own, he⟩,
      h.not_mem_definitionsOf hd other id (OpenDocument.mem_definitions_of_entry he)⟩

theorem Consistent.dropDefinitions (h : w.Consistent) (source : Nat) :
    (w.dropDefinitions source).1.Mirrors fun s d id =>
      w.Entry s d id ∧ id ∉ w.definitionsOf source := by
  unfold Workspace.dropDefinitions Workspace.definitionsOf
  cases w.documentOf? source with
  | none => exact h.mirrors.congr fun s d id => by simp
  | some document => exact h.mirrors.unregisterAll document.definitions

theorem Consistent.remove (h : w.Consistent) (coherent : w.Coherent past) (key : Text) :
    (w.remove key).1.Consistent := by
  rcases w.remove_cases key with ⟨-, eq⟩ | ⟨document, -, eq⟩
  · rw [eq]
    exact h
  · rw [eq]
    generalize document.source = source
    refine ⟨h.keys, fun d hd => h.filed d (mem_without.1 hd).1, ?_, stale_markStale fun s hs => ?_⟩
    · refine (h.dropDefinitions source).congr fun s d id => ?_
      rw [coherent.entry_dropped]
      exact exists_congr fun e => by rw [← and_assoc, ← mem_without]; rfl
    · obtain ⟨hs, other⟩ := List.mem_filter.1 hs
      obtain ⟨d, hd, rfl⟩ := h.stale s hs
      exact ⟨d, mem_without.2 ⟨hd, by simpa using other⟩, rfl⟩

theorem Consistent.add (h : w.Consistent) (coherent : w.Coherent past) (key text : Text)
    (isBuiltin : Bool) : (w.add key text isBuiltin).1.Consistent := by
  rw [add_eq]
  extract_lets source document before registered edited
  have own : document.source = source := rfl
  have mirrors : registered.1.Mirrors _ :=
    (h.dropDefinitions source).registerAll source document.revision.tree.definitions before.2
  refine ⟨h.keys.intern key, fun d hd => ?_, mirrors.congr fun s d id => ?_, fun s hs => ?_⟩
  · rcases mem_putDocument hd with rfl | ⟨hd, -⟩
    · exact SourceTable.id_intern w.sources key
    · exact SourceTable.id_intern_of_id (h.filed d hd)
  · rw [coherent.entry_dropped]
    constructor
    · rintro (⟨e, he, other, hs, hm⟩ | ⟨rfl, hm⟩)
      · exact ⟨e, mem_putDocument_iff.2 (.inr ⟨he, other⟩), hs, hm⟩
      · exact ⟨document, mem_putDocument_iff.2 (.inl rfl), rfl, hm⟩
    · rintro ⟨e, he, hs, hm⟩
      rcases mem_putDocument he with rfl | ⟨he, other⟩
      · exact .inr ⟨hs.symm, hm⟩
      · exact .inl ⟨e, he, other, hs, hm⟩
  · rcases mem_appendNew.1 hs with hs | rfl
    · refine stale_markStale (w := edited) (fun s hs => ?_) s hs
      obtain ⟨d, hd, rfl⟩ := h.stale s hs
      by_cases same : d.source = source
      · exact ⟨document, mem_putDocument_iff.2 (.inl rfl), same.symm⟩
      · exact ⟨d, mem_putDocument_iff.2 (.inr ⟨hd, same⟩), rfl⟩
    · exact ⟨document, mem_putDocument_iff.2 (.inl rfl), rfl⟩

theorem Consistent.rebuild (h : w.Consistent) : w.rebuild.Consistent where
  keys := h.keys
  filed := h.filed
  mirrors := by
    have tracked := w.rebuild_tracked
    refine h.mirrors.consumers tracked.owners tracked.products tracked.next
      (tracked.regular h.mirrors.regular) (fun id name hc => (tracked.consumers id name).2 (.inl hc))
      fun id name hc => ?_
    rcases (tracked.consumers id name).1 hc with hc | ⟨d, hd, inference, -, entry, he, rfl, -⟩
    · exact h.mirrors.consumer id name hc
    · exact ⟨d.source, entry.1, d, List.mem_of_mem_filter hd, rfl, he⟩
  stale := fun _ h => nomatch h

theorem Consistent.step (h : w.Consistent) (coherent : w.Coherent past) (step : Step) :
    (w.step step).Consistent := by
  cases step with
  | add key text isBuiltin => exact h.add coherent key text isBuiltin
  | replace key text isBuiltin => exact h.add coherent key text isBuiltin
  | remove key => exact h.remove coherent key
  | rebuild => exact h.rebuild

theorem opened_consistent (builtins : Bool) : (opened builtins).Consistent := by
  cases builtins with
  | false => exact consistent_empty
  | true => exact (consistent_empty.add (coherent_empty fun _ => False) _ _ _).rebuild

theorem opened_run_consistent (builtins : Bool) (steps : List Step) :
    ((opened builtins).run steps).Consistent := by
  induction steps using List.reverseRecOn with
  | nil => exact opened_consistent builtins
  | append_singleton steps step ih =>
    rw [run_append]
    exact ih.step (run_coherent builtins steps) step

theorem run_consistent (steps : List Step) : (run {} steps).Consistent :=
  opened_run_consistent false steps

/-! ## Numbers of definitions -/

/-- The document that is put under a key stands there. -/
theorem Coherent.document_add (h : w.Coherent past) (key text : Text) (isBuiltin : Bool) :
    (w.add key text isBuiltin).1.document? key = some (w.addedDocument key text isBuiltin) := by
  have number : (w.add key text isBuiltin).1.sources.id? key = some (w.sources.intern key).2 :=
    SourceTable.id_intern w.sources key
  unfold document?
  rw [number, Option.bind_some, documentOf_eq_some_iff (h.add key text isBuiltin).sources]
  exact ⟨mem_putDocument_iff.2 (.inl rfl), rfl⟩

/-- The numbers that a step gives to definitions: those of the document that it puts. -/
def numbersGiven (w : Workspace) (step : Step) : List Nat :=
  match step with
  | .add key _ _ => (((w.step step).document? key).map OpenDocument.definitions).getD []
  | .replace key _ _ => (((w.step step).document? key).map OpenDocument.definitions).getD []
  | .remove _ => []
  | .rebuild => []

/-- All numbers that are given in the course of a run. -/
def numbersOfRun (w : Workspace) : List Step → List Nat
  | [] => []
  | step :: steps => w.numbersGiven step ++ numbersOfRun (w.step step) steps

theorem Coherent.numbersGiven_add (h : w.Coherent past) (key text : Text) (isBuiltin : Bool) :
    ∃ count, (w.addedDocument key text isBuiltin).definitions =
        List.range' w.registry.next count ∧
      (w.add key text isBuiltin).1.registry.next = w.registry.next + count :=
  ⟨_, h.definitions_addedDocument key text isBuiltin, h.next_add key text isBuiltin⟩

/-- A step gives the numbers that come next. -/
theorem Coherent.numbersGiven (h : w.Coherent past) (step : Step) :
    ∃ count, w.numbersGiven step = List.range' w.registry.next count ∧
      (w.step step).registry.next = w.registry.next + count := by
  cases step with
  | add key text isBuiltin =>
    have ⟨count, given, next⟩ := h.numbersGiven_add key text isBuiltin
    refine ⟨count, ?_, next⟩
    show (((w.add key text isBuiltin).1.document? key).map OpenDocument.definitions).getD [] = _
    rw [h.document_add, Option.map_some, Option.getD_some, given]
  | replace key text isBuiltin =>
    have ⟨count, given, next⟩ := h.numbersGiven_add key text isBuiltin
    refine ⟨count, ?_, next⟩
    show (((w.add key text isBuiltin).1.document? key).map OpenDocument.definitions).getD [] = _
    rw [h.document_add, Option.map_some, Option.getD_some, given]
  | remove key =>
    refine ⟨0, rfl, ?_⟩
    show (w.remove key).1.registry.next = _
    unfold Workspace.remove
    cases w.document? key with
    | none => rfl
    | some document => exact (Registry.unregisterAll_dropped document.definitions h.regular).next
  | rebuild => exact ⟨0, rfl, w.rebuild_tracked.next⟩

theorem Coherent.step (h : w.Coherent past) (step : Step) : ∃ past, (w.step step).Coherent past := by
  cases step with
  | add key text isBuiltin => exact ⟨past, h.add key text isBuiltin⟩
  | replace key text isBuiltin => exact ⟨past, h.add key text isBuiltin⟩
  | remove key => exact ⟨past, h.remove key⟩
  | rebuild => exact ⟨_, h.rebuild⟩

/-- A run gives consecutive numbers. -/
theorem Coherent.numbersOfRun (h : w.Coherent past) (steps : List Step) :
    ∃ count, w.numbersOfRun steps = List.range' w.registry.next count := by
  induction steps generalizing w past with
  | nil => exact ⟨0, rfl⟩
  | cons step steps ih =>
    obtain ⟨count, given, next⟩ := h.numbersGiven step
    obtain ⟨past', later⟩ := h.step step
    obtain ⟨more, rest⟩ := ih later
    refine ⟨count + more, ?_⟩
    rw [Workspace.numbersOfRun, given, rest, next, List.range'_append_1]

/-- A step takes no number from a key. -/
theorem id_step {key : Text} {source : Nat} (h : w.sources.id? key = some source) (step : Step) :
    (w.step step).sources.id? key = some source := by
  cases step with
  | add other text isBuiltin => exact SourceTable.id_intern_of_id h
  | replace other text isBuiltin => exact SourceTable.id_intern_of_id h
  | remove other =>
    show (w.remove other).1.sources.id? key = some source
    unfold Workspace.remove
    cases w.document? other with
    | none => exact h
    | some document => exact h
  | rebuild => exact h

theorem id_run {key : Text} {source : Nat} (h : w.sources.id? key = some source)
    (steps : List Step) : (w.run steps).sources.id? key = some source := by
  induction steps generalizing w with
  | nil => exact h
  | cons step steps ih => exact ih (id_step h step)

/-! ## What holds behind every run -/

/-- What ties the parts of a workspace together. -/
structure Invariant (w : Workspace) : Prop where
  /-- Keys and numbers are in one-to-one correspondence. -/
  bijection : ∀ key source, w.sources.id? key = some source ↔ w.sources.key? source = some key
  /-- Every document is filed by the number of its key, and no two have the same. -/
  filed : ∀ d ∈ w.documents, w.sources.id? d.key = some d.source
  single : (w.documents.map OpenDocument.source).Nodup
  /-- The numbers of a document stand beside its definitions. -/
  parallel : ∀ d ∈ w.documents, d.definitions.length = d.revision.tree.definitions.length
  /-- Owned are just the definitions of the present documents. -/
  owners : ∀ id source, w.registry.owners.get? id = some source ↔
    ∃ d ∈ w.documents, d.source = source ∧ id ∈ d.definitions
  /-- What the graph mentions is owned by a present document. -/
  owned : ∀ id, (w.registry.graph.produces id = true ∨
      ∃ name, id ∈ w.registry.graph.consumersOf name) →
    ∃ d ∈ w.documents, w.registry.owners.get? id = some d.source
  /-- Every definition is registered with what it provides and what it refers to. -/
  registered : ∀ d ∈ w.documents, ∀ entry ∈ d.entries,
    w.registry.graph.products.get? entry.2 = entry.1.product? ∧
    ∀ name ∈ entry.1.consumed, entry.2 ∈ w.registry.graph.consumersOf name
  stale : ∀ source ∈ w.stale, ∃ d ∈ w.documents, d.source = source
  /-- What is not stale is resolved, and consumes the types that it was resolved through. -/
  fresh : ∀ d ∈ w.documents, d.source ∉ w.stale →
    ∃ inference, w.database.inferenceOf? d.revision.id = some inference ∧
      ∀ entry ∈ d.entries,
        ∀ type ∈ inference.referencedTypes.get (entry.1.node.id d.revision.id),
          entry.2 ∈ w.registry.graph.consumersOf (.type type)

/-- The owner of a number is the source of the document that has it. -/
theorem Consistent.owner_iff (h : w.Consistent) (coherent : w.Coherent past) {id source : Nat} :
    w.registry.owners.get? id = some source ↔
      ∃ d ∈ w.documents, d.source = source ∧ id ∈ d.definitions := by
  rw [h.mirrors.owner]
  constructor
  · rintro ⟨definition, d, hd, own, he⟩
    exact ⟨d, hd, own, OpenDocument.mem_definitions_of_entry he⟩
  · rintro ⟨d, hd, own, hid⟩
    obtain ⟨entry, he, rfl⟩ := (coherent.registered d hd).entry_of_id hid
    exact ⟨entry.1, d, hd, own, he⟩

theorem Consistent.invariant (h : w.Consistent) (coherent : w.Coherent past) : w.Invariant where
  bijection := fun _ _ => SourceTable.id_eq_some_iff_key h.keys
  filed := h.filed
  single := coherent.sources
  parallel := fun d hd => (coherent.registered d hd).length
  owners := fun _ _ => h.owner_iff coherent
  owned := fun id mentioned => by
    have ⟨source, definition, d, hd, own, he⟩ : ∃ source d, w.Entry source d id := by
      rcases mentioned with produces | ⟨name, consumes⟩
      · obtain ⟨name, hn⟩ := Option.isSome_iff_exists.1 produces
        exact h.mirrors.producer id name hn
      · exact h.mirrors.consumer id name consumes
    exact ⟨d, hd, (h.mirrors.owner id d.source).2 ⟨definition, d, hd, rfl, he⟩⟩
  registered := fun d hd entry he =>
    have entered : w.Entry d.source entry.1 entry.2 := ⟨d, hd, rfl, he⟩
    ⟨h.mirrors.product _ _ _ entered, h.mirrors.consumed _ _ _ entered⟩
  stale := h.stale
  fresh := fun d hd current =>
    have ⟨_, _, made⟩ := coherent.fresh d hd current
    ⟨_, made.inference, made.tracked⟩

/-- Behind every run the parts of a workspace tell the same story. A key that has a number keeps
it, and no number is given to two definitions. -/
theorem run_invariant (steps : List Step) :
    (run {} steps).Invariant ∧
    (∀ key source, (run {} steps).sources.id? key = some source →
      ∀ later, (run {} (steps ++ later)).sources.id? key = some source) ∧
    (numbersOfRun {} steps).Nodup := by
  refine ⟨(run_consistent steps).invariant (run_coherent false steps), ?_, ?_⟩
  · intro key source number later
    rw [run, List.foldl_append]
    exact id_run number later
  · obtain ⟨count, numbers⟩ := (coherent_empty fun _ => False).numbersOfRun steps
    rw [numbers]
    exact List.nodup_range'

end Workspace

end GraphQL
