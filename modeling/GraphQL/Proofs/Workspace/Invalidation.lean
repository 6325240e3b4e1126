import GraphQL.Proofs.Dependency.Reach
import GraphQL.Proofs.Workspace.Consistency

/-! # What an edit invalidates

An edit gives the key of the edited document and those of the documents that own a definition which
depends, by the graph before the edit, on an old definition of the edited document or on one that
consumed a name which the new text provides. It marks these documents and no others. -/

namespace GraphQL

set_option autoImplicit false

/-! ## The registry in the course of an edit -/

namespace Registry

variable {before : Graph Nat Dependency} {old seed : Nat → Prop} {r : Registry} {stale : List Nat}

theorem spreading_unregister_foldl {gone : List Nat} (within : before.Within old)
    (seeds : ∀ id ∈ gone, seed id) (h : before.Spreading old seed r.graph stale)
    (regular : r.graph.Regular) :
    let dropped := gone.foldl (fun (r, stale) id => r.unregister stale id) (r, stale)
    before.Spreading old seed dropped.1.graph dropped.2 ∧
      ∀ id, id ∈ gone ∨ id ∈ stale → id ∈ dropped.2 := by
  induction gone generalizing r stale with
  | nil => exact ⟨h, fun id hid => hid.resolve_left List.not_mem_nil⟩
  | cons first gone ih =>
    rw [List.forall_mem_cons] at seeds
    have walked := h.invalidate within fun _ => seeds.1
    have left := walked.remove regular (r.graph.mem_invalidate_self first stale)
    obtain ⟨later, visited⟩ := ih (r := (r.unregister stale first).1) seeds.2 left
      (regular.remove first)
    refine ⟨later, fun id hid => visited id ?_⟩
    rcases hid with hid | hid
    · rcases List.mem_cons.1 hid with rfl | hid
      · exact .inr (r.graph.mem_invalidate_self id stale)
      · exact .inl hid
    · exact .inr (r.graph.mem_invalidate_of_mem hid)

theorem spreading_unregisterAll {gone : List Nat} (within : r.graph.Within old)
    (seeds : ∀ id ∈ gone, seed id) (regular : r.graph.Regular) :
    r.graph.Spreading old seed (r.unregisterAll gone).1.graph (r.unregisterAll gone).2 ∧
      ∀ id ∈ gone, id ∈ (r.unregisterAll gone).2 :=
  have ⟨dropped, visited⟩ := spreading_unregister_foldl within seeds
    (r.graph.spreading_start old seed) regular
  ⟨dropped, fun id hid => visited id (.inl hid)⟩

/-- Dropping old definitions makes old ones stale. -/
theorem old_unregisterAll {gone : List Nat} (within : r.graph.Within old)
    (known : ∀ id ∈ gone, old id) (regular : r.graph.Regular) :
    ∀ id ∈ (r.unregisterAll gone).2, old id := by
  unfold Registry.unregisterAll
  have none : ∀ id ∈ ([] : List Nat), old id := fun _ h => nomatch h
  revert none
  generalize ([] : List Nat) = stale
  intro hs
  induction gone generalizing r stale with
  | nil => exact hs
  | cons first gone ih =>
    rw [List.forall_mem_cons] at known
    exact ih (r := (r.unregister stale first).1) (within.remove regular first) known.2
      (regular.remove first) _
      (Graph.forall_mem_invalidate hs known.1 fun key other ho => (within key other ho).2)

theorem spreading_consumeAll {g : Graph Nat Dependency} {id : Nat} (fresh : ¬old id)
    (names : List Dependency) (h : before.Spreading old seed g stale) :
    before.Spreading old seed (consumeAll id names g) stale := by
  unfold consumeAll
  induction names generalizing g with
  | nil => exact h
  | cons name names ih => exact ih (h.consume fresh name)

/-- Registering walks from the definitions that consumed the new name. -/
theorem spreading_register (source : Nat) {d : Definition} (within : before.Within old)
    (fresh : ¬old r.next) (unvisited : r.next ∉ stale)
    (seeds : ∀ name, d.product? = some name → ∀ id ∈ before.consumersOf name, seed id)
    (h : before.Spreading old seed r.graph stale) :
    before.Spreading old seed (r.register source d stale).1.graph (r.register source d stale).2 := by
  refine spreading_consumeAll fresh d.consumed ?_
  show before.Spreading old seed (r.produced d) (staleBy (r.produced d) d.product? stale)
  unfold produced staleBy
  cases product : d.product? with
  | none => exact h
  | some name =>
    have produced := h.produce within fresh unvisited (seeds name product)
    exact produced.invalidateAll within fun start hs hold =>
      seeds name product start (produced.known start name hs hold)

/-- Definitions that were given a number stand below the next one. -/
theorem below_register {E : Nat → Definition → Nat → Prop} (mirrors : r.Mirrors E) {source : Nat}
    {d : Definition} (below : ∀ id ∈ stale, id < r.next) :
    ∀ id ∈ (r.register source d stale).2, id < r.next := by
  have consumer (id : Nat) (name : Dependency) (hc : id ∈ (r.produced d).consumersOf name) :
      id < r.next := by
    rw [produced_consumersOf] at hc
    obtain ⟨s, e, he⟩ := mirrors.consumer id name hc
    exact mirrors.below s e id he
  show ∀ id ∈ staleBy (r.produced d) d.product? stale, id < r.next
  unfold staleBy
  cases d.product? with
  | none => exact below
  | some name =>
    refine Graph.forall_mem_invalidateAll below (fun id => consumer id name) fun key other ho => ?_
    obtain ⟨value, -, consumes⟩ := Graph.mem_dependents.1 ho
    exact consumer other value consumes

theorem visited_register {source : Nat} {d : Definition} {name : Dependency}
    (product : d.product? = some name) (h : before.Spreading old seed r.graph stale) :
    ∀ id ∈ before.consumersOf name, id ∈ (r.register source d stale).2 := by
  intro id hid
  show id ∈ staleBy (r.produced d) d.product? stale
  rcases h.kept id name hid with hid | hid
  · rw [← produced_consumersOf d] at hid
    rw [product]
    exact mem_invalidate_foldl (.inl hid)
  · exact staleBy_grown stale hid

theorem spreading_registerAll {E : Nat → Definition → Nat → Prop} (source : Nat)
    (definitions : List Definition) (within : before.Within old) (mirrors : r.Mirrors E)
    (fresh : ∀ id, r.next ≤ id → ¬old id) (below : ∀ id ∈ stale, id < r.next)
    (seeds : ∀ d ∈ definitions, ∀ name, d.product? = some name →
      ∀ id ∈ before.consumersOf name, seed id)
    (h : before.Spreading old seed r.graph stale) :
    let added := r.registerAll source definitions stale
    before.Spreading old seed added.1.graph added.2 ∧
      ∀ d ∈ definitions, ∀ name, d.product? = some name →
        ∀ id ∈ before.consumersOf name, id ∈ added.2 := by
  unfold Registry.registerAll
  induction definitions generalizing r E stale with
  | nil => exact ⟨h, fun _ hd => nomatch hd⟩
  | cons first definitions ih =>
    rw [List.forall_mem_cons] at seeds
    have unvisited : r.next ∉ stale := fun hm => Nat.lt_irrefl _ (below _ hm)
    have entered := spreading_register source within (fresh r.next (Nat.le_refl _))
      unvisited seeds.1 h
    have below' : ∀ id ∈ (r.register source first stale).2, id < r.next + 1 := fun id hid =>
      Nat.lt_succ_of_lt (below_register mirrors below id hid)
    obtain ⟨later, visited⟩ := ih (mirrors.register source first stale)
      (fun id hid => fresh id (Nat.le_of_succ_le hid)) below' seeds.2 entered
    have grown := (registerAll_added source definitions (r := (r.register source first stale).1)
      (r.register source first stale).2 (mirrors.register source first stale).regular).grown
    refine ⟨later, List.forall_mem_cons.2 ⟨fun name product id hid => ?_, visited⟩⟩
    exact grown id (visited_register product h id hid)

end Registry

namespace Workspace

variable {past : Index → Prop} {w : Workspace}

/-! ## Keys and documents -/

theorem mem_keys_markStale {definitions : List Nat} {edited k : Text} :
    k ∈ (w.markStale definitions edited).2 ↔
      k = edited ∨ ∃ d ∈ w.ownersOf definitions, d.key = k := by
  unfold markStale
  rw [mem_appendNew, mem_foldl_appendNew, List.mem_map, or_comm]
  simp

theorem mem_pending (sources : (w.documents.map OpenDocument.source).Nodup) {k : Text} :
    k ∈ w.pending ↔ ∃ d ∈ w.documents, d.source ∈ w.stale ∧ d.key = k := by
  unfold pending
  rw [List.mem_filterMap]
  constructor
  · rintro ⟨source, hs, found⟩
    obtain ⟨d, filed, rfl⟩ := Option.map_eq_some_iff.1 found
    obtain ⟨hd, rfl⟩ := (documentOf_eq_some_iff sources).1 filed
    exact ⟨d, hd, hs, rfl⟩
  · rintro ⟨d, hd, hs, rfl⟩
    exact ⟨d.source, hs, by rw [(documentOf_eq_some_iff sources).2 ⟨hd, rfl⟩, Option.map_some]⟩

/-- The owners of some definitions are the documents that have one of them. -/
theorem Consistent.mem_ownersOf (h : w.Consistent) (coherent : w.Coherent past)
    {definitions : List Nat} {d : OpenDocument} :
    d ∈ w.ownersOf definitions ↔ d ∈ w.documents ∧ ∃ id ∈ definitions, id ∈ d.definitions := by
  unfold ownersOf
  rw [List.mem_filterMap]
  constructor
  · rintro ⟨id, hid, found⟩
    obtain ⟨source, owner, found⟩ := Option.bind_eq_some_iff.1 found
    obtain ⟨hd, rfl⟩ := (documentOf_eq_some_iff coherent.sources).1 found
    obtain ⟨e, he, same, own⟩ := (h.owner_iff coherent).1 owner
    exact ⟨hd, id, hid, coherent.document_eq he hd same ▸ own⟩
  · rintro ⟨hd, id, hid, own⟩
    refine ⟨id, hid, ?_⟩
    rw [(h.owner_iff coherent).2 ⟨d, hd, rfl, own⟩, Option.bind_some,
      (documentOf_eq_some_iff coherent.sources).2 ⟨hd, rfl⟩]

/-- A document stands under a key if it is filed by the number that the key has or will have. -/
theorem Consistent.source_eq_intern (h : w.Consistent) {d : OpenDocument} (hd : d ∈ w.documents)
    {key : Text} : d.source = (w.sources.intern key).2 ↔ d.key = key := by
  have regular := h.keys.intern key
  have own : (w.sources.intern key).1.id? d.key = some d.source :=
    SourceTable.id_intern_of_id (h.filed d hd)
  have number := SourceTable.id_intern w.sources key
  constructor
  · intro same
    rw [same, SourceTable.id_eq_some_iff_key regular] at own
    rw [SourceTable.id_eq_some_iff_key regular] at number
    exact Option.some.inj (own.symm.trans number)
  · rintro rfl
    exact Option.some.inj (own.symm.trans number)

theorem Consistent.document_eq_some_iff (h : w.Consistent) (coherent : w.Coherent past) {key : Text}
    {d : OpenDocument} : w.document? key = some d ↔ d ∈ w.documents ∧ d.key = key := by
  unfold document?
  rw [Option.bind_eq_some_iff]
  constructor
  · rintro ⟨source, number, found⟩
    obtain ⟨hd, own⟩ := (documentOf_eq_some_iff coherent.sources).1 found
    exact ⟨hd, (h.source_of_key hd number).1 own⟩
  · rintro ⟨hd, rfl⟩
    exact ⟨d.source, h.filed d hd, (documentOf_eq_some_iff coherent.sources).2 ⟨hd, rfl⟩⟩

/-! ## What an edit touches -/

/-- A definition that an edit touches: an old one of the edited document, or one that consumed a
name which a new definition provides. -/
def Touches (w : Workspace) (key : Text) (definitions : List Definition) (id : Nat) : Prop :=
  (∃ d, w.document? key = some d ∧ id ∈ d.definitions) ∨
  ∃ definition ∈ definitions, ∃ name, definition.product? = some name ∧
    id ∈ w.registry.graph.consumersOf name

/-- The document under a key owns a definition that depends on one which an edit touches. -/
def Affects (w : Workspace) (key : Text) (definitions : List Definition) (k : Text) : Prop :=
  ∃ d ∈ w.documents, d.key = k ∧ ∃ id ∈ d.definitions,
    ∃ start, w.Touches key definitions start ∧ w.registry.graph.Leads start id

theorem Consistent.mem_definitionsOf (h : w.Consistent) (coherent : w.Coherent past) {key : Text}
    {id : Nat} : id ∈ w.definitionsOf (w.sources.intern key).2 ↔
      ∃ d, w.document? key = some d ∧ id ∈ d.definitions := by
  constructor
  · intro hid
    unfold Workspace.definitionsOf at hid
    cases found : w.documentOf? (w.sources.intern key).2 with
    | none =>
      rw [found] at hid
      cases hid
    | some d =>
      obtain ⟨hd, own⟩ := (documentOf_eq_some_iff coherent.sources).1 found
      rw [found, Option.map_some, Option.getD_some] at hid
      exact ⟨d, (h.document_eq_some_iff coherent).2 ⟨hd, (h.source_eq_intern hd).1 own⟩, hid⟩
  · rintro ⟨d, found, hid⟩
    obtain ⟨hd, own⟩ := (h.document_eq_some_iff coherent).1 found
    rw [← (h.source_eq_intern hd).2 own, coherent.definitionsOf hd]
    exact hid

theorem Consistent.within (h : w.Consistent) :
    w.registry.graph.Within fun id => id < w.registry.next := by
  intro key other ho
  obtain ⟨name, produced, consumes⟩ := Graph.mem_dependents.1 ho
  obtain ⟨s, d, he⟩ := h.mirrors.producer key name produced
  obtain ⟨s', d', he'⟩ := h.mirrors.consumer other name consumes
  exact ⟨h.mirrors.below s d key he, h.mirrors.below s' d' other he'⟩

theorem dropDefinitions_eq (w : Workspace) (source : Nat) :
    w.dropDefinitions source = w.registry.unregisterAll (w.definitionsOf source) := by
  unfold Workspace.dropDefinitions Workspace.definitionsOf
  cases w.documentOf? source <;> rfl

theorem Coherent.definitionsOf_below (h : w.Coherent past) (source : Nat) :
    ∀ id ∈ w.definitionsOf source, id < w.registry.next := by
  intro id hid
  unfold Workspace.definitionsOf at hid
  cases found : w.documentOf? source with
  | none =>
    rw [found] at hid
    cases hid
  | some d =>
    rw [found, Option.map_some, Option.getD_some] at hid
    exact (h.registered d ((documentOf_eq_some_iff h.sources).1 found).1).below id hid

/-- Of the definitions that there were, those are stale behind an edit to which touched ones lead. -/
theorem Consistent.stale_iff (h : w.Consistent) (coherent : w.Coherent past) (key : Text)
    (definitions : List Definition) {id : Nat} (known : id < w.registry.next) :
    let source := (w.sources.intern key).2
    let dropped := w.dropDefinitions source
    id ∈ (dropped.1.registerAll source definitions dropped.2).2 ↔
      ∃ start, w.Touches key definitions start ∧ w.registry.graph.Leads start id := by
  intro source dropped
  have gone : ∀ id ∈ w.definitionsOf source, w.Touches key definitions id := fun id hid =>
    .inl ((h.mem_definitionsOf coherent).1 hid)
  have drop : w.registry.graph.Spreading (fun id => id < w.registry.next)
      (w.Touches key definitions) dropped.1.graph dropped.2 ∧
        ∀ id ∈ w.definitionsOf source, id ∈ dropped.2 := by
    have := Registry.spreading_unregisterAll h.within gone h.mirrors.regular
    rwa [← dropDefinitions_eq] at this
  have next : dropped.1.next = w.registry.next := (coherent.dropDefinitions source).next
  have below : ∀ id ∈ dropped.2, id < dropped.1.next := by
    have old := Registry.old_unregisterAll h.within (coherent.definitionsOf_below source)
      h.mirrors.regular
    rwa [← dropDefinitions_eq, ← next] at old
  have added := Registry.spreading_registerAll source definitions
    h.within (h.dropDefinitions source) (fun id hid => by rw [next] at hid; omega) below
    (fun d hd name product id hid => .inr ⟨d, hd, name, product, hid⟩) drop.1
  refine added.1.visited_iff (fun id touched => ?_) known
  rcases touched with old | ⟨d, hd, name, product, consumes⟩
  · have grown := (Registry.registerAll_added source definitions dropped.2
      (h.dropDefinitions source).regular).grown
    exact grown id (drop.2 id ((h.mem_definitionsOf coherent).2 old))
  · exact added.2 d hd name product id consumes

/-! ## Edits -/

/-- An edit of the document under a key that made some definitions stale: the other documents stay,
and those that own a stale definition are marked. -/
structure Edited (w edited : Workspace) (key : Text) (stale : List Nat) : Prop where
  others : ∀ d, d.key ≠ key → (d ∈ edited.documents ↔ d ∈ w.documents)
  marks : ∀ d ∈ w.documents, d.key ≠ key →
    (d.source ∈ edited.stale ↔
      d.source ∈ w.stale ∨ ∃ e ∈ edited.ownersOf stale, e.source = d.source)

variable {edited : Workspace} {key : Text} {stale : List Nat}

/-- The owners of stale definitions are the documents that the edit affects, up to the edited one. -/
theorem Edited.affects_iff (h : w.Edited edited key stale) (coherent : w.Coherent past)
    (after : edited.Consistent) (after' : edited.Coherent past) {definitions : List Definition}
    (reached : ∀ id < w.registry.next,
      (id ∈ stale ↔ ∃ start, w.Touches key definitions start ∧ w.registry.graph.Leads start id))
    (k : Text) : (k = key ∨ ∃ d ∈ edited.ownersOf stale, d.key = k) ↔
      k = key ∨ w.Affects key definitions k := by
  constructor
  · rintro (own | ⟨d, hd, rfl⟩)
    · exact .inl own
    · by_cases same : d.key = key
      · exact .inl same
      · obtain ⟨there, id, hid, own⟩ := (after.mem_ownersOf after').1 hd
        have before := (h.others d same).1 there
        have known := (coherent.registered d before).below id own
        exact .inr ⟨d, before, rfl, id, own, (reached id known).1 hid⟩
  · rintro (own | ⟨d, before, rfl, id, own, affected⟩)
    · exact .inl own
    · by_cases same : d.key = key
      · exact .inl same
      · have known := (coherent.registered d before).below id own
        have there := (h.others d same).2 before
        have hid := (reached id known).2 affected
        exact .inr ⟨d, (after.mem_ownersOf after').2 ⟨there, id, hid, own⟩, rfl⟩

/-- Of the other keys those are pending that were and those of owners of stale definitions. -/
theorem Edited.pending_iff (h : w.Edited edited key stale) (coherent : w.Coherent past)
    (after : edited.Consistent) (after' : edited.Coherent past) {k : Text} (other : k ≠ key) :
    k ∈ edited.pending ↔ k ∈ w.pending ∨ ∃ d ∈ edited.ownersOf stale, d.key = k := by
  rw [mem_pending after'.sources, mem_pending coherent.sources]
  constructor
  · rintro ⟨d, there, hs, rfl⟩
    have before := (h.others d other).1 there
    rcases (h.marks d before other).1 hs with hs | ⟨e, he, same⟩
    · exact .inl ⟨d, before, hs, rfl⟩
    · have owner := ((after.mem_ownersOf after').1 he).1
      exact .inr ⟨e, he, by rw [after'.document_eq owner there same]⟩
  · rintro (⟨d, before, hs, rfl⟩ | ⟨d, hd, rfl⟩)
    · exact ⟨d, (h.others d other).2 before, (h.marks d before other).2 (.inl hs), rfl⟩
    · have there := ((after.mem_ownersOf after').1 hd).1
      have before := (h.others d other).1 there
      exact ⟨d, there, (h.marks d before other).2 (.inr ⟨d, hd, rfl⟩), rfl⟩

/-- What adding a text gives and marks. -/
theorem Consistent.add_affects (h : w.Consistent) (coherent : w.Coherent past) (key text : Text)
    (isBuiltin : Bool) :
    let definitions := (w.addedDocument key text isBuiltin).revision.tree.definitions
    let edit := w.add key text isBuiltin
    (∀ k, k ∈ edit.2 ↔ k = key ∨ w.Affects key definitions k) ∧
    ∀ k, k ∈ edit.1.pending ↔ k ∈ w.pending ∨ k ∈ edit.2 := by
  intro definitions edit
  let document := w.addedDocument key text isBuiltin
  let dropped := w.dropDefinitions document.source
  let stale := (dropped.1.registerAll document.source definitions dropped.2).2
  have after : edit.1.Consistent := h.add coherent key text isBuiltin
  have after' : edit.1.Coherent past := coherent.add key text isBuiltin
  have keys (k : Text) :
      k ∈ edit.2 ↔ k = key ∨ ∃ d ∈ edit.1.ownersOf stale, d.key = k := mem_keys_markStale
  have marks (source : Nat) : source ∈ edit.1.stale ↔
      (source ∈ w.stale ∨ ∃ d ∈ edit.1.ownersOf stale, d.source = source) ∨
        source = document.source := by
    show source ∈ appendNew (((edit.1.ownersOf stale).map OpenDocument.source).foldl appendNew
      w.stale) document.source ↔ _
    rw [mem_appendNew, mem_foldl_appendNew, List.mem_map]
  have put : document ∈ edit.1.documents := mem_putDocument_iff.2 (.inl rfl)
  have edited : w.Edited edit.1 key stale := by
    refine ⟨fun d other => ?_, fun d hd other => ?_⟩
    · show d ∈ putDocument document w.documents ↔ _
      rw [mem_putDocument_iff]
      constructor
      · rintro (rfl | ⟨hd, -⟩)
        · exact absurd rfl other
        · exact hd
      · exact fun hd => .inr ⟨hd, fun same => other ((h.source_eq_intern hd).1 same)⟩
    · rw [marks]
      exact or_iff_left fun same => other ((h.source_eq_intern hd).1 same)
  refine ⟨fun k => (keys k).trans ?_, fun k => ?_⟩
  · exact edited.affects_iff coherent after after' (fun id known => h.stale_iff coherent key _ known) k
  · rw [keys]
    by_cases own : k = key
    · have marked : k ∈ edit.1.pending :=
        (mem_pending after'.sources).2 ⟨document, put, (marks _).2 (.inr rfl), own.symm⟩
      exact iff_of_true marked (.inr (.inl own))
    · rw [edited.pending_iff coherent after after' own, or_iff_right own]

/-- What removing a document gives and marks. -/
theorem Consistent.remove_affects (h : w.Consistent) (coherent : w.Coherent past)
    {document : OpenDocument} (hd : document ∈ w.documents) :
    let edit := w.remove document.key
    (∀ k, k ∈ edit.2 ↔ k = document.key ∨ w.Affects document.key [] k) ∧
    ∀ k, k ∈ edit.1.pending ↔ (k ∈ w.pending ∨ k ∈ edit.2) ∧ k ≠ document.key := by
  intro edit
  let stale := (w.registry.unregisterAll document.definitions).2
  have after : edit.1.Consistent := h.remove coherent document.key
  have after' : edit.1.Coherent past := coherent.remove document.key
  have number : document.source = (w.sources.intern document.key).2 := (h.source_eq_intern hd).2 rfl
  have drop : w.dropDefinitions document.source = w.registry.unregisterAll document.definitions := by
    rw [dropDefinitions_eq, coherent.definitionsOf hd]
  have eq : edit = markStale (w.without document.source) stale document.key := by
    have found := (h.document_eq_some_iff coherent).2 ⟨hd, rfl⟩
    rcases w.remove_cases document.key with ⟨absent, -⟩ | ⟨e, there, removed⟩
    · rw [found] at absent
      cases absent
    · obtain rfl : document = e := Option.some.inj (found.symm.trans there)
      rw [drop] at removed
      exact removed
  have keys (k : Text) :
      k ∈ edit.2 ↔ k = document.key ∨ ∃ d ∈ edit.1.ownersOf stale, d.key = k := by
    rw [eq]
    exact mem_keys_markStale
  have present (d : OpenDocument) :
      d ∈ edit.1.documents ↔ d ∈ w.documents ∧ d.key ≠ document.key := by
    rw [eq]
    show d ∈ w.documents.filter (fun d => d.source != document.source) ↔ _
    rw [List.mem_filter, bne_iff_ne, number]
    exact and_congr_right fun hd => not_congr (h.source_eq_intern hd)
  have edited : w.Edited edit.1 document.key stale := by
    refine ⟨fun d other => (present d).trans (and_iff_left other), fun d hd other => ?_⟩
    have apart : d.source ≠ document.source := fun same =>
      other ((h.source_eq_intern hd).1 (same.trans number))
    rw [eq]
    show d.source ∈ (List.map OpenDocument.source _).foldl appendNew
      (w.stale.filter fun source => source != document.source) ↔ _
    rw [mem_foldl_appendNew, List.mem_map, List.mem_filter, bne_iff_ne, and_iff_left apart]
    rfl
  refine ⟨fun k => (keys k).trans ?_, fun k => ?_⟩
  · refine edited.affects_iff coherent after after' (fun id known => ?_) k
    show id ∈ (w.registry.unregisterAll document.definitions).2 ↔ _
    rw [← drop, number]
    exact h.stale_iff coherent document.key [] known
  · rw [keys]
    by_cases own : k = document.key
    · refine iff_of_false (fun marked => ?_) fun both => both.2 own
      obtain ⟨d, there, -, rfl⟩ := (mem_pending after'.sources).1 marked
      exact ((present d).1 there).2 own
    · rw [edited.pending_iff coherent after after' own, or_iff_right own, and_iff_left own]

/-- Behind every run, adding or replacing a text and removing a document that is there give the key
of the edited document and the keys of the documents that the edit affects, and these are pending
with those that were, but for a removed one. -/
theorem run_edit_affects (steps : List Step) (key : Text) :
    let w := run {} steps
    (∀ text isBuiltin,
      let edit := w.add key text isBuiltin
      let definitions := (parse (w.sources.intern key).2 text).tree.definitions
      (∀ k, k ∈ edit.2 ↔ k = key ∨ w.Affects key definitions k) ∧
      ∀ k, k ∈ edit.1.pending ↔ k ∈ w.pending ∨ k ∈ edit.2) ∧
    (key ∈ w.keys →
      let edit := w.remove key
      (∀ k, k ∈ edit.2 ↔ k = key ∨ w.Affects key [] k) ∧
      ∀ k, k ∈ edit.1.pending ↔ (k ∈ w.pending ∨ k ∈ edit.2) ∧ k ≠ key) := by
  intro w
  have consistent : w.Consistent := run_consistent steps
  have coherent := run_coherent false steps
  refine ⟨fun text isBuiltin => consistent.add_affects coherent key text isBuiltin, fun there => ?_⟩
  obtain ⟨document, hd, rfl⟩ := List.mem_map.1 there
  exact consistent.remove_affects coherent hd

end Workspace

end GraphQL
