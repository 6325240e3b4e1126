import GraphQL.Production.Document
import GraphQL.Proofs.Database.Agreement
import GraphQL.Proofs.Database.Lookups
import GraphQL.Proofs.Database.Origin
import GraphQL.Proofs.Inference.Spreads

/-! # Links between spreads and fragments

A spread is linked to its fragment, and the fragment to its spreads, in the inference of the
document with the spread. Each of a snapshot's inferences may be of another generation: it was made
by the first of the snapshots that handed it on.

* `Database.MadeOf`: how snapshots come from earlier ones,
* `MadeOf.generations`: every inference was made for its document, from an index of some of the
  documents,
* `Generations.mem_spreads`, `Generations.fragment?_eq`: both views of a snapshot tell of a spread
  what the inference of its own document has,
* `Database.links_mutual`: so they agree, and spreads are listed in order. -/

namespace GraphQL

set_option autoImplicit false

open Resolver

variable {documents : Nat → Document}

/-! ## Snapshots and their generations -/

/-- The documents with these numbers, in turn. -/
def readings (documents : Nat → Document) (numbers : List Nat) : List Revision :=
  numbers.map fun n => ⟨n, documents n⟩

/-- A snapshot of some documents. What it reuses, earlier ones hold for the same documents. -/
inductive Database.MadeOf (documents : Nat → Document) : Database → Prop
  | build (numbers : List Nat) (reuse : Table Nat Inference) (earlier : List Database)
      (before : ∀ old ∈ earlier, Database.MadeOf documents old)
      (held : ∀ n ∈ numbers, ∀ i, reuse.get? n = some i →
        ∃ old ∈ earlier, old.inferenceOf? n = some i) :
      Database.MadeOf documents (Database.build (readings documents numbers) reuse)

/-- An inference for a document that some of the documents were indexed for. -/
def Inference.MadeFor (documents : Nat → Document) (revision : Revision) (i : Inference) : Prop :=
  ∃ known, i = infer (Index.build (readings documents known)) revision

theorem eq_reading {numbers : List Nat} {r : Revision} (hr : r ∈ readings documents numbers) :
    r = ⟨r.id, documents r.id⟩ := by
  obtain ⟨n, -, rfl⟩ := List.mem_map.1 hr
  rfl

/-- A snapshot has one inference for each of its documents, all made for them. -/
structure Database.Generations (documents : Nat → Document) (database : Database)
    (inference : Revision → Inference) : Prop where
  known : ∀ r ∈ database.revisions, r = ⟨r.id, documents r.id⟩
  inferences : database.inferences =
    (distinctRevisions database.revisions).map fun r => (r.id, inference r)
  made : ∀ r ∈ database.revisions, (inference r).MadeFor documents r

theorem Database.Generations.inferenceOf {database : Database} {inference : Revision → Inference}
    (h : database.Generations documents inference) {n : Nat} {i : Inference}
    (found : database.inferenceOf? n = some i) : i.MadeFor documents ⟨n, documents n⟩ := by
  rw [Database.inferenceOf?, h.inferences] at found
  obtain ⟨before, after, same, -⟩ := List.lookup_eq_some_iff.1 found
  have member :
      (n, i) ∈ (distinctRevisions database.revisions).map fun r => (r.id, inference r) := by
    rw [same]
    exact List.mem_append_right _ List.mem_cons_self
  obtain ⟨r, hr, own⟩ := List.mem_map.1 member
  cases own
  have hr := mem_distinctRevisions hr
  rw [← h.known r hr]
  exact h.made r hr

/-- However often inferences were handed on, each was made for its document. -/
theorem Database.MadeOf.generations {database : Database} (h : database.MadeOf documents) :
    ∃ inference, database.Generations documents inference := by
  induction h with
  | build numbers reuse earlier _ held ih =>
    refine ⟨fun r => (reuse.get? r.id).getD (infer (Index.build (readings documents numbers)) r),
      fun r hr => eq_reading hr, rfl, fun r hr => ?_⟩
    obtain ⟨n, hn, rfl⟩ := List.mem_map.1 hr
    cases reused : reuse.get? n with
    | none => exact ⟨numbers, rfl⟩
    | some i =>
      obtain ⟨old, hold, found⟩ := held n hn i reused
      obtain ⟨inference, generations⟩ := ih old hold
      exact generations.inferenceOf found

/-! ## The order of documents -/

theorem exists_distinctRevision {revisions : List Revision} {r : Revision} (hr : r ∈ revisions) :
    ∃ first ∈ distinctRevisions revisions, first.id = r.id := by
  induction revisions with
  | nil => cases hr
  | cons r' rest ih =>
    by_cases same : r.id = r'.id
    · exact ⟨r', List.mem_cons_self, same.symm⟩
    · obtain ⟨first, hfirst, own⟩ := ih ((List.mem_cons.1 hr).resolve_left fun h => same (h ▸ rfl))
      refine ⟨first, List.mem_cons_of_mem _ (List.mem_filter.2 ⟨hfirst, bne_iff_ne.2 ?_⟩), own⟩
      exact own ▸ same

/-- Each revision stands where it is first listed. -/
theorem distinctRevisions_increase (revisions : List Revision) :
    (distinctRevisions revisions).Pairwise fun a b =>
      (revisions.map Revision.id).idxOf a.id < (revisions.map Revision.id).idxOf b.id := by
  induction revisions with
  | nil => exact List.Pairwise.nil
  | cons r rest ih =>
    have later {n : Nat} (other : n ≠ r.id) :
        (r.id :: rest.map Revision.id).idxOf n = (rest.map Revision.id).idxOf n + 1 :=
      List.idxOf_cons_ne _ (Ne.symm other)
    have others {a : Revision} (ha : a ∈ (distinctRevisions rest).filter fun a => a.id != r.id) :
        a.id ≠ r.id := bne_iff_ne.1 (List.mem_filter.1 ha).2
    rw [distinctRevisions, List.map_cons, List.pairwise_cons]
    refine ⟨fun b hb => ?_,
      (ih.sublist List.filter_sublist).imp_of_mem fun {a b} ha hb increase => ?_⟩
    · rw [List.idxOf_cons_self, later (others hb)]
      exact Nat.succ_pos _
    · rw [later (others ha), later (others hb)]
      exact Nat.succ_lt_succ increase

theorem distinctRevisions_nodup (revisions : List Revision) :
    ((distinctRevisions revisions).map Revision.id).Nodup := by
  refine List.pairwise_map.2
    ((distinctRevisions_increase revisions).imp fun {a b} increase same => ?_)
  rw [same] at increase
  exact Nat.lt_irrefl _ increase

/-! ## The views of a snapshot -/

/-- A spread stands before another: in a document that is listed first, or before it in the same
document. -/
def Located.Precedes (numbers : List Nat) (a b : Located FragmentSpread) : Prop :=
  numbers.idxOf a.revision < numbers.idxOf b.revision ∨
    a.revision = b.revision ∧ a.value.dots.span.start < b.value.dots.span.start

namespace Database.Generations

variable {database : Database} {inference : Revision → Inference}
  (h : database.Generations documents inference)
  (ordered : ∀ n, (documents n).outline.tokens.Pairwise Token.Before)

include h

theorem eq_of_id {r r' : Revision} (hr : r ∈ database.revisions) (hr' : r' ∈ database.revisions)
    (same : r.id = r'.id) : r = r' := by
  rw [h.known r hr, h.known r' hr', same]

theorem mem_distinct {r : Revision} (hr : r ∈ database.revisions) :
    r ∈ distinctRevisions database.revisions := by
  obtain ⟨first, hfirst, same⟩ := exists_distinctRevision hr
  rwa [← h.eq_of_id (mem_distinctRevisions hfirst) hr same]

/-- A spread is resolved by the inference of its own document. -/
theorem fragment?_eq {r : Revision} (hr : r ∈ database.revisions) (s : FragmentSpread) :
    database.fragment? (Located.mk r.id s).id =
      (inference r).fragments.get? (Located.mk r.id s).id := by
  refine Database.lookup_own h.inferences (distinctRevisions_nodup _) _ (fun r' hr' other => ?_)
    (h.mem_distinct hr) rfl
  obtain ⟨known, made⟩ := h.made r' (mem_distinctRevisions hr')
  rw [made]
  exact infer_spread_other other

theorem spreads_eq (fragment : NodeId) : database.spreads fragment =
    (distinctRevisions database.revisions).flatMap fun r => (inference r).spreads.get fragment := by
  rw [Database.spreads, h.inferences, List.flatMap_map]

include ordered

theorem ordered_tree {r : Revision} (hr : r ∈ database.revisions) :
    r.tree.outline.tokens.Pairwise Token.Before := by
  rw [h.known r hr]
  exact ordered r.id

/-- What an inference has for a fragment are spreads of its own document, in source order. -/
theorem get_spreads {r : Revision} (hr : r ∈ database.revisions) (fragment : NodeId) :
    (∀ s ∈ (inference r).spreads.get fragment, s.revision = r.id ∧ s.value ∈ r.tree.spreads) ∧
      ((inference r).spreads.get fragment).Pairwise fun a b =>
        a.revision = b.revision ∧ a.value.dots.span.start < b.value.dots.span.start := by
  obtain ⟨known, made⟩ := h.made r hr
  have tree := h.ordered_tree ordered hr
  rw [made, infer_spreads tree]
  refine ⟨fun s hs => ?_, List.pairwise_map.2 ?_⟩
  · obtain ⟨value, hvalue, rfl⟩ := List.mem_map.1 hs
    exact ⟨rfl, (List.mem_filter.1 hvalue).1⟩
  · exact ((Document.spreads_increase tree).sublist List.filter_sublist).imp fun later =>
      ⟨rfl, later⟩

/-- The spreads of a fragment come from the inferences of their own documents. -/
theorem mem_spreads {r : Revision} (hr : r ∈ database.revisions) (s : FragmentSpread)
    (fragment : NodeId) : ⟨r.id, s⟩ ∈ database.spreads fragment ↔
      ⟨r.id, s⟩ ∈ (inference r).spreads.get fragment := by
  rw [h.spreads_eq, List.mem_flatMap]
  refine ⟨fun found => ?_, fun found => ⟨r, h.mem_distinct hr, found⟩⟩
  obtain ⟨r', hr', found⟩ := found
  have hr' := mem_distinctRevisions hr'
  have own : r.id = r'.id := ((h.get_spreads ordered hr' fragment).1 _ found).1
  exact h.eq_of_id hr' hr own.symm ▸ found

/-- What is listed for a fragment are spreads of the documents of the snapshot. -/
theorem spreads_known (fragment : NodeId) : ∀ s ∈ database.spreads fragment,
    ∃ r ∈ database.revisions, s.revision = r.id ∧ s.value ∈ r.tree.spreads := by
  rw [h.spreads_eq]
  intro s hs
  obtain ⟨r, hr, found⟩ := List.mem_flatMap.1 hs
  have hr := mem_distinctRevisions hr
  exact ⟨r, hr, (h.get_spreads ordered hr fragment).1 s found⟩

/-- The spreads of a fragment are listed document by document, and there in source order. -/
theorem spreads_precede (fragment : NodeId) : (database.spreads fragment).Pairwise
    (Located.Precedes (database.revisions.map Revision.id)) := by
  rw [h.spreads_eq, List.pairwise_flatMap]
  have spreads {r : Revision} (hr : r ∈ distinctRevisions database.revisions) :=
    h.get_spreads ordered (mem_distinctRevisions hr) fragment
  refine ⟨fun r hr => (spreads hr).2.imp .inr, ?_⟩
  refine (distinctRevisions_increase _).imp_of_mem fun {r r'} hr hr' increase s hs s' hs' => .inl ?_
  rwa [((spreads hr).1 s hs).1, ((spreads hr').1 s' hs').1]

/-- No spread is listed twice for a fragment. -/
theorem spreads_nodup (fragment : NodeId) :
    ((database.spreads fragment).map Located.id).Nodup := by
  refine List.pairwise_map.2 ((h.spreads_precede ordered fragment).imp_of_mem ?_)
  rintro ⟨n, s⟩ ⟨n', s'⟩ hs hs' precedes same
  obtain rfl : n = n' := congrArg NodeId.revision same
  obtain ⟨r, hr, own, listed⟩ := h.spreads_known ordered fragment _ hs
  obtain ⟨r', hr', own', listed'⟩ := h.spreads_known ordered fragment _ hs'
  rw [← h.eq_of_id hr hr' (own.symm.trans own')] at listed'
  have one : Node.spread s = .spread s' :=
    Document.node_unique (h.ordered_tree ordered hr) (Document.mem_spreads.1 listed)
      (Document.mem_spreads.1 listed') rfl same
  cases one
  rcases precedes with earlier | ⟨-, earlier⟩
  · exact Nat.lt_irrefl _ earlier
  · exact Int.lt_irrefl _ earlier

end Database.Generations

/-! ## Fragments -/

/-- The node of a definition is one of its document. -/
theorem Document.node_mem {document : Document} {d : Definition} (hd : d ∈ document.definitions) :
    d.node ∈ document.outline.nodes := by
  rw [Document.outline, Outline.nodes, nodesOf_map]
  refine List.mem_cons_of_mem _ (List.mem_flatMap.2 ⟨d, hd, ?_⟩)
  rw [d.outline_eq, Outline.nodes]
  exact List.mem_cons_self

/-- Fragments of a text that are the same node are one. -/
theorem Document.fragment_unique {document : Document}
    (ordered : document.outline.tokens.Pairwise Token.Before) {f g : FragmentDefinition}
    (hf : .fragment f ∈ document.definitions) (hg : .fragment g ∈ document.definitions)
    {revision : Nat} (same : (Node.fragment f).id revision = (Node.fragment g).id revision) :
    f = g := by
  have head (f : FragmentDefinition) : (Node.fragment f).head? = some f.keyword := rfl
  have one : Node.fragment f = .fragment g := node_eq_of_head ordered (Document.node_mem hf)
    (Document.node_mem hg) (head f) (head g) same
  cases one
  rfl

/-- The fragment is one of its document. -/
def Located.IsIn (documents : Nat → Document) (f : Located FragmentDefinition) : Prop :=
  .fragment f.value ∈ (documents f.revision).definitions

/-- A name is resolved to fragments of the documents that are indexed. -/
theorem fragmentNamed_isIn {known : List Nat} {s : FragmentSpread} {f : Located FragmentDefinition}
    (found : fragmentNamed? (Index.build (readings documents known)) s = some f) :
    f.IsIn documents := by
  have lists := (Index.build_filled (readings documents known)).lists.fragments
  have member := List.mem_of_head? found
  rw [lists.get] at member
  obtain ⟨entry, filed, value, picked, rfl⟩ := mem_located.1 (List.mem_filter.1 member).1
  obtain ⟨r, hr, listed⟩ := List.mem_flatMap.1 filed
  obtain ⟨d, hd, rfl⟩ := List.mem_map.1 listed
  rw [eq_reading hr] at hd
  cases d with
  | fragment d => exact Option.some.inj picked ▸ hd
  | _ => cases picked

/-- A spread is linked to a fragment if its name is resolved to the node of the fragment. -/
theorem spreadTarget_eq_some (ordered : ∀ n, (documents n).outline.tokens.Pairwise Token.Before)
    {known : List Nat} {s : FragmentSpread} {f : Located FragmentDefinition}
    (hf : f.IsIn documents) :
    spreadTarget (Index.build (readings documents known)) s = some f.id ↔
      fragmentNamed? (Index.build (readings documents known)) s = some f := by
  refine ⟨fun target => ?_, fun named => by rw [spreadTarget, named]; rfl⟩
  obtain ⟨⟨revision, g⟩, named, same⟩ := Option.map_eq_some_iff.1 target
  obtain ⟨revision', f⟩ := f
  obtain rfl : revision = revision' := congrArg NodeId.revision same
  have hg : .fragment g ∈ (documents revision).definitions := fragmentNamed_isIn named
  obtain rfl := Document.fragment_unique (ordered revision) hg hf same
  exact named

/-! ## Links -/

/-- A spread of a snapshot is listed for just the fragment that it is resolved to, also where
inferences are reused that earlier snapshots hold for the same documents. No spread is listed twice
for a fragment; spreads stand in the order in which their documents are first listed, then in source
order. -/
theorem Database.links_mutual (ordered : ∀ n, (documents n).outline.tokens.Pairwise Token.Before)
    {database : Database} (made : database.MadeOf documents) :
    (∀ r ∈ database.revisions, ∀ s ∈ r.tree.spreads,
      ∀ f : Located FragmentDefinition, f.IsIn documents →
        (⟨r.id, s⟩ ∈ database.spreads f.id ↔
          database.fragment? (Located.mk r.id s).id = some f)) ∧
    ∀ fragment : NodeId,
      (∀ s ∈ database.spreads fragment,
        ∃ r ∈ database.revisions, s.revision = r.id ∧ s.value ∈ r.tree.spreads) ∧
      ((database.spreads fragment).map Located.id).Nodup ∧
      (database.spreads fragment).Pairwise
        (Located.Precedes (database.revisions.map Revision.id)) := by
  obtain ⟨inference, generations⟩ := made.generations
  refine ⟨fun r hr s hs f hf => ?_, fun fragment =>
    ⟨generations.spreads_known ordered fragment, generations.spreads_nodup ordered fragment,
      generations.spreads_precede ordered fragment⟩⟩
  obtain ⟨known, inferred⟩ := generations.made r hr
  have tree := generations.ordered_tree ordered hr
  have listed : ⟨r.id, s⟩ ∈ (inference r).spreads.get f.id ↔
      spreadTarget (Index.build (readings documents known)) s = some f.id := by
    rw [inferred, infer_spreads tree]
    simp [hs]
  rw [generations.mem_spreads ordered hr, listed, spreadTarget_eq_some ordered hf,
    generations.fragment?_eq hr, inferred]
  exact Eq.congr_left (infer_spread tree (Document.mem_spreads.1 hs)).symm

/-- Two documents that spread a fragment which both define. -/
def spreadTexts (n : Nat) : Document :=
  (parse n (match n with
    | 1 => "fragment A on T { ...B ...A ...B }"
    | 2 => "fragment B on T { ...A } fragment A on T { ...A } fragment A on T { a }"
    | _ => "")).tree

/-- A snapshot of the second document alone. -/
def firstLinks : Database := Database.build (readings spreadTexts [2]) {}

/-- Both documents, one of them twice, where the inference of the second is reused. -/
def laterLinks : Database :=
  Database.build (readings spreadTexts [1, 2, 1])
    (({} : Table Nat Inference).insert 2 ((firstLinks.inferenceOf? 2).getD {}))

theorem firstLinks_made : firstLinks.MadeOf spreadTexts :=
  .build [2] {} [] (fun _ none => nomatch none) fun _ _ _ none => nomatch none

theorem laterLinks_made : laterLinks.MadeOf spreadTexts := by
  refine .build [1, 2, 1] _ [firstLinks] (List.forall_mem_singleton.2 firstLinks_made) ?_
  intro n _ i reused
  refine ⟨firstLinks, List.mem_singleton_self _, ?_⟩
  rw [Table.get?_insert] at reused
  split at reused
  · next own =>
    subst own
    cases held : firstLinks.inferenceOf? 2 with
    | none => exact absurd held (by decide +kernel)
    | some j =>
      rw [held] at reused
      exact reused
  · cases reused

/-- Spreads of one name in different documents are linked to different fragments, by inferences of
different generations. -/
theorem laterLinks_mutual :
    (∀ n, (spreadTexts n).outline.tokens.Pairwise Token.Before) ∧ laterLinks.MadeOf spreadTexts ∧
      (∀ r ∈ laterLinks.revisions, ∀ s ∈ r.tree.spreads,
        ∀ f : Located FragmentDefinition, f.IsIn spreadTexts →
          (⟨r.id, s⟩ ∈ laterLinks.spreads f.id ↔
            laterLinks.fragment? (Located.mk r.id s).id = some f)) ∧
      ([1, 2].map fun n => (spreadTexts n).definitions.map fun d =>
        (laterLinks.spreads (d.node.id n)).map fun s => (s.revision, s.value.dots.span.start)) =
          [[[(1, 23)]], [[(1, 18), (1, 28)], [(2, 18), (2, 43)], []]] :=
  have ordered (n : Nat) : (spreadTexts n).outline.tokens.Pairwise Token.Before :=
    parse_leaves_before n _
  ⟨ordered, laterLinks_made, (Database.links_mutual ordered laterLinks_made).1, by decide +kernel⟩

end GraphQL
