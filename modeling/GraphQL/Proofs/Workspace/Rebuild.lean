import GraphQL.Proofs.Workspace.Coherence

/-! # Rebuilding

A rebuild keeps the inferences of documents that are not stale and makes the others by the present
index. Behind it nothing is stale, and a coherent workspace stays so: `Workspace.Coherent.rebuild`. -/

namespace GraphQL

set_option autoImplicit false

namespace Workspace

/-! ## Inferences by revision -/

theorem get_filterMap_of_not_mem {documents : List OpenDocument} {id : Nat}
    (h : id ∉ documents.map fun d => d.revision.id) (inference : OpenDocument → Option Inference) :
    (⟨documents.filterMap fun d => (inference d).map fun i => (d.revision.id, i)⟩ :
      Table Nat Inference).get? id = none := by
  induction documents with
  | nil => rfl
  | cons e documents ih =>
    rw [List.map_cons, List.mem_cons, not_or] at h
    cases hi : inference e with
    | none => rw [List.filterMap_cons_none (by rw [hi, Option.map_none]), ih h.2]
    | some i =>
      rw [List.filterMap_cons_some (by rw [hi, Option.map_some]), Table.get?_cons, if_neg h.1, ih h.2]

theorem get_filterMap {documents : List OpenDocument}
    (revisions : (documents.map fun d => d.revision.id).Nodup)
    (inference : OpenDocument → Option Inference) {d : OpenDocument} (hd : d ∈ documents) :
    (⟨documents.filterMap fun d => (inference d).map fun i => (d.revision.id, i)⟩ :
      Table Nat Inference).get? d.revision.id = inference d := by
  induction documents with
  | nil => cases hd
  | cons e documents ih =>
    rw [List.map_cons, List.nodup_cons] at revisions
    rcases List.mem_cons.1 hd with rfl | hd
    · cases hi : inference d with
      | none =>
        rw [List.filterMap_cons_none (by rw [hi, Option.map_none])]
        exact get_filterMap_of_not_mem revisions.1 inference
      | some i =>
        rw [List.filterMap_cons_some (by rw [hi, Option.map_some]), Table.get?_cons, if_pos rfl]
    · have other : d.revision.id ≠ e.revision.id := fun same =>
        revisions.1 (same ▸ List.mem_map_of_mem hd)
      cases hi : inference e with
      | none =>
        rw [List.filterMap_cons_none (by rw [hi, Option.map_none]), ih revisions.2 hd]
      | some i =>
        rw [List.filterMap_cons_some (by rw [hi, Option.map_some]), Table.get?_cons, if_neg other,
          ih revisions.2 hd]

theorem distinctRevisions_eq {revisions : List Revision}
    (h : (revisions.map Revision.id).Nodup) : distinctRevisions revisions = revisions := by
  induction revisions with
  | nil => rfl
  | cons r revisions ih =>
    rw [List.map_cons, List.nodup_cons] at h
    have others : ∀ other ∈ revisions, (other.id != r.id) = true := fun other ho =>
      bne_iff_ne.2 fun same => h.1 (same ▸ List.mem_map_of_mem ho)
    rw [distinctRevisions, ih h.2, List.filter_eq_self.2 others]

/-- A database of distinct revisions has one inference for each, in order. -/
theorem inferences_build {revisions : List Revision} (h : (revisions.map Revision.id).Nodup)
    (reuse : Table Nat Inference) :
    (Database.build revisions reuse).inferences = revisions.map fun r =>
      (r.id, (reuse.get? r.id).getD (infer (Index.build revisions) r)) := by
  unfold Database.build
  rw [distinctRevisions_eq h]

theorem lookup_map_of_mem {β : Type} {revisions : List Revision}
    (h : (revisions.map Revision.id).Nodup) (f : Revision → β) {r : Revision} (hr : r ∈ revisions) :
    (revisions.map fun r => (r.id, f r)).lookup r.id = some (f r) := by
  induction revisions with
  | nil => cases hr
  | cons e revisions ih =>
    rw [List.map_cons, List.nodup_cons] at h
    rw [List.map_cons, List.lookup_cons]
    rcases List.mem_cons.1 hr with rfl | hr
    · rw [beq_self_eq_true]
    · have other : r.id ≠ e.id := fun same => h.1 (same ▸ List.mem_map_of_mem hr)
      rw [beq_false_of_ne other]
      exact ih h.2 hr

variable {past : Index → Prop} {w : Workspace}

theorem Coherent.reusable (h : w.Coherent past) {d : OpenDocument} (hd : d ∈ w.documents) :
    w.reusable.get? d.revision.id =
      if d.source ∈ w.stale then none else w.database.inferenceOf? d.revision.id := by
  have same : w.reusable = ⟨w.documents.filterMap fun d =>
      (if d.source ∈ w.stale then none else w.database.inferenceOf? d.revision.id).map fun i =>
        (d.revision.id, i)⟩ := by
    unfold Workspace.reusable
    congr 1
    refine List.filterMap_congr fun d _ => ?_
    by_cases hs : d.source ∈ w.stale
    · rw [if_pos (by simpa using hs), if_pos hs, Option.map_none]
    · rw [if_neg (by simpa using hs), if_neg hs]
  rw [same, get_filterMap h.revisions _ hd]

/-! ## Tracking -/

/-- A document's definitions were resolved through a type, by some database. -/
def ResolvedThrough (database : Database) (d : OpenDocument) (id : Nat) (name : Dependency) : Prop :=
  ∃ inference, database.inferenceOf? d.revision.id = some inference ∧
    ∃ entry ∈ d.entries, id = entry.2 ∧
      ∃ type ∈ inference.referencedTypes.get (entry.1.node.id d.revision.id), .type type = name

/-- What tracking leaves: nothing but consumers changes. -/
structure Tracked (r r' : Registry) (consumes : Nat → Dependency → Prop) : Prop where
  owners : r'.owners = r.owners
  products : r'.graph.products = r.graph.products
  next : r'.next = r.next
  regular : r.graph.Regular → r'.graph.Regular
  consumers : ∀ id name, id ∈ r'.graph.consumersOf name ↔
    id ∈ r.graph.consumersOf name ∨ consumes id name

theorem Tracked.refl (r : Registry) : Tracked r r fun _ _ => False :=
  ⟨rfl, rfl, rfl, id, fun _ _ => (or_iff_left id).symm⟩

theorem Tracked.trans {r r' r'' : Registry} {p q : Nat → Dependency → Prop} (h : Tracked r r' p)
    (h' : Tracked r' r'' q) : Tracked r r'' fun id name => p id name ∨ q id name where
  owners := h'.owners.trans h.owners
  products := h'.products.trans h.products
  next := h'.next.trans h.next
  regular := fun regular => h'.regular (h.regular regular)
  consumers := fun id name => by rw [h'.consumers, h.consumers, or_assoc]

theorem Tracked.congr {r r' : Registry} {p q : Nat → Dependency → Prop} (h : Tracked r r' p)
    (same : ∀ id name, p id name ↔ q id name) : Tracked r r' q :=
  { h with consumers := fun id name => by rw [h.consumers, same] }

theorem trackTypes_tracked (r : Registry) (id : Nat) (types : List Text) :
    Tracked r (r.trackTypes id types) fun other name =>
      (∃ type ∈ types, .type type = name) ∧ other = id where
  owners := rfl
  products := Registry.consumeAll_products id _ r.graph
  next := rfl
  regular := fun regular => Registry.consumeAll_regular regular id _
  consumers := fun _ _ => Registry.mem_consumersOf_trackTypes

theorem tracked_foldl {α : Type} (f : Registry → α → Registry) (p : α → Nat → Dependency → Prop)
    (step : ∀ r a, Tracked r (f r a) (p a)) (items : List α) (r : Registry) :
    Tracked r (items.foldl f r) fun id name => ∃ a ∈ items, p a id name := by
  induction items generalizing r with
  | nil => exact (Tracked.refl r).congr (by simp)
  | cons a items ih => exact ((step r a).trans (ih (f r a))).congr (by simp)

theorem trackDocument_tracked (database : Database) (r : Registry) (d : OpenDocument) :
    Tracked r (trackDocument database r d) (ResolvedThrough database d) := by
  unfold trackDocument ResolvedThrough
  cases database.inferenceOf? d.revision.id with
  | none => exact (Tracked.refl r).congr (by simp)
  | some inference =>
    refine (tracked_foldl _ (fun (entry : Definition × Nat) id name =>
      (∃ type ∈ inference.referencedTypes.get (entry.1.node.id d.revision.id), .type type = name) ∧
        id = entry.2) (fun r entry => trackTypes_tracked r _ _) d.entries r).congr fun id name => ?_
    simp [and_comm]

/-! ## The step -/

theorem Coherent.revisions_map (h : w.Coherent past) :
    ((w.documents.map OpenDocument.revision).map Revision.id).Nodup := by
  rw [List.map_map]
  exact h.revisions

theorem Coherent.inferences_rebuild (h : w.Coherent past) :
    w.rebuild.database.inferences = w.documents.map fun d =>
      (d.revision.id, (w.reusable.get? d.revision.id).getD (infer w.presentIndex d.revision)) := by
  show (Database.build _ _).inferences = _
  rw [inferences_build h.revisions_map, List.map_map]
  rfl

theorem Coherent.inferenceOf_rebuild (h : w.Coherent past) {d : OpenDocument}
    (hd : d ∈ w.documents) :
    w.rebuild.database.inferenceOf? d.revision.id =
      some ((w.reusable.get? d.revision.id).getD (infer w.presentIndex d.revision)) := by
  show (Database.build _ _).inferences.lookup _ = _
  rw [inferences_build h.revisions_map]
  exact lookup_map_of_mem h.revisions_map _ (List.mem_map_of_mem hd)

/-- The documents that a rebuild resolves. -/
def resolvedDocuments (w : Workspace) : List OpenDocument :=
  w.documents.filter fun d => !w.reusable.contains d.revision.id

theorem rebuild_tracked (w : Workspace) :
    Tracked w.registry w.rebuild.registry fun id name =>
      ∃ d ∈ w.resolvedDocuments, ResolvedThrough w.rebuild.database d id name :=
  tracked_foldl _ _ (trackDocument_tracked w.rebuild.database) w.resolvedDocuments w.registry

theorem Coherent.document_eq (h : w.Coherent past) {d e : OpenDocument} (hd : d ∈ w.documents)
    (he : e ∈ w.documents) (same : d.source = e.source) : d = e := by
  have found := documentOf_eq_some h.sources hd
  rw [same, documentOf_eq_some h.sources he] at found
  exact (Option.some.inj found).symm

/-- No number belongs to two documents. -/
theorem Coherent.document_of_number (h : w.Coherent past) {d e : OpenDocument}
    (hd : d ∈ w.documents) (he : e ∈ w.documents) {id : Nat} (own : id ∈ d.definitions)
    (own' : id ∈ e.definitions) : d = e := by
  refine h.document_eq hd he ?_
  by_contra other
  exact (h.registered d hd).disjoint (h.registered e he) other own own'

/-- A document that is reused has no number of one that is resolved. -/
theorem Coherent.reused_apart (h : w.Coherent past) {d : OpenDocument} (hd : d ∈ w.documents)
    (reused : w.reusable.contains d.revision.id = true) {id : Nat} (hid : id ∈ d.definitions)
    {name : Dependency} :
    ¬∃ e ∈ w.resolvedDocuments, ResolvedThrough w.rebuild.database e id name := by
  rintro ⟨e, he, inference, -, entry, hentry, rfl, -⟩
  obtain ⟨hm, resolved⟩ := List.mem_filter.1 he
  rw [← h.document_of_number hd hm hid (OpenDocument.mem_definitions_of_entry hentry), reused]
    at resolved
  cases resolved

/-- A rebuild makes what is stale by the present index and keeps the rest. -/
theorem Coherent.rebuild (h : w.Coherent past) :
    w.rebuild.Coherent fun index => past index ∨ index = w.presentIndex := by
  have tracked := w.rebuild_tracked
  refine ⟨h.sources, h.revisions, h.numbered, h.parsed, tracked.regular h.regular, ?_, ?_⟩
  · intro d hd
    have before := h.registered d hd
    refine ⟨before.length, fun id hid => ?_, fun entry he => ?_⟩
    · rw [tracked.next]
      exact before.below id hid
    · have entered := before.entered entry he
      refine ⟨?_, fun name hn => ?_, fun name hn => ?_⟩
      · rw [tracked.owners, entered.owner]
      · rw [tracked.products, entered.product name hn]
      · exact (tracked.consumers _ name).2 (.inl (entered.consumed name hn))
  · intro d hd _
    have inference := h.inferenceOf_rebuild hd
    rw [h.reusable hd] at inference
    by_cases stale : d.source ∈ w.stale
    · rw [if_pos stale, Option.getD_none] at inference
      have resolved : d ∈ w.resolvedDocuments := by
        refine List.mem_filter.2 ⟨hd, ?_⟩
        rw [Table.contains, h.reusable hd, if_pos stale]
        rfl
      refine ⟨w.presentIndex, .inr rfl, inference, fun entry he type ht => ?_, fun _ _ _ _ => .refl _ _⟩
      exact (tracked.consumers _ _).2 (.inr ⟨d, resolved, _, inference, entry, he, rfl, type, ht, rfl⟩)
    · obtain ⟨old, hold, made⟩ := h.fresh d hd stale
      rw [if_neg stale, made.inference, Option.getD_some] at inference
      have reused : w.reusable.contains d.revision.id = true := by
        rw [Table.contains, h.reusable hd, if_neg stale, made.inference]
        rfl
      refine ⟨old, .inl hold, inference, fun entry he type ht => ?_, fun entry he name hn => ?_⟩
      · exact (tracked.consumers _ _).2 (.inl (made.tracked entry he type ht))
      · have hid := OpenDocument.mem_definitions_of_entry he
        have consumed := ((tracked.consumers _ name).1 hn).resolve_right (h.reused_apart hd reused hid)
        exact made.agree entry he name consumed

end Workspace

end GraphQL
