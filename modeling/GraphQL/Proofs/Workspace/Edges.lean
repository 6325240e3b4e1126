import GraphQL.Proofs.Workspace.Invalidation

/-! # Where the edges of the graph come from

A definition is entered as a consumer when its document is read, and whenever a rebuild resolves its
document. Both kinds of edges stay until the document is read anew or removed. So a definition
consumes what it refers to, and every type that some snapshot since then resolved it through, and
nothing else: `Workspace.run_traced`. -/

namespace GraphQL

set_option autoImplicit false

namespace Registry

/-- Registering enters the new definitions as consumers of what they refer to, and no others. -/
theorem mem_consumersOf_registerAll {source : Nat} {definitions : List Definition} {r : Registry}
    {stale : List Nat} {id : Nat} {name : Dependency} :
    id ∈ (r.registerAll source definitions stale).1.graph.consumersOf name ↔
      id ∈ r.graph.consumersOf name ∨
        ∃ entry ∈ definitions.zip (List.range' r.next definitions.length),
          entry.2 = id ∧ name ∈ entry.1.consumed := by
  unfold registerAll
  induction definitions generalizing r stale with
  | nil => simp
  | cons d definitions ih =>
    have next : (r.register source d stale).1.next = r.next + 1 := rfl
    have entered : id ∈ (r.register source d stale).1.graph.consumersOf name ↔
        id ∈ r.graph.consumersOf name ∨ r.next = id ∧ name ∈ d.consumed := by
      show id ∈ (consumeAll r.next d.consumed (r.produced d)).consumersOf name ↔ _
      rw [mem_consumersOf_consumeAll, produced_consumersOf, and_comm, eq_comm]
    rw [List.foldl_cons, ih, entered, next, List.length_cons, List.range'_succ,
      List.zip_cons_cons, List.exists_mem_cons_iff, or_assoc]

end Registry

/-- A document is what its text is read as, and its definitions have numbers of their own. -/
structure OpenDocument.AsRead (d : OpenDocument) : Prop where
  tree : d.revision.tree = (parse d.source d.text).tree
  length : d.definitions.length = d.revision.tree.definitions.length
  numbers : d.definitions.Nodup

theorem OpenDocument.AsRead.entry_eq {d : OpenDocument} (h : d.AsRead)
    {entry entry' : Definition × Nat} (he : entry ∈ d.entries) (he' : entry' ∈ d.entries)
    (same : entry.2 = entry'.2) : entry = entry' := by
  have ids : d.entries.map Prod.snd = d.definitions := List.map_snd_zip (Nat.le_of_eq h.length)
  exact List.inj_on_of_nodup_map (ids.symm ▸ h.numbers) he he' same

namespace Workspace

variable {seen seen' : Database → Prop} {past : Index → Prop} {w : Workspace}

/-- The definitions of the documents are entered as consumers of what they refer to and of the types
that they were resolved through by a database that was seen, and of nothing else. -/
structure Traced (seen : Database → Prop) (w : Workspace) : Prop where
  documents : ∀ d ∈ w.documents, d.AsRead
  present : seen w.database
  /-- What was seen resolves revisions that there were. -/
  bounded : ∀ database, seen database → ∀ id inference,
    database.inferenceOf? id = some inference → id < w.nextRevision
  consumers : ∀ d ∈ w.documents, ∀ entry ∈ d.entries, ∀ name,
    entry.2 ∈ w.registry.graph.consumersOf name ↔
      name ∈ entry.1.consumed ∨
        ∃ database, seen database ∧ ResolvedThrough database d entry.2 name

/-- A database that resolves nothing need not have been seen. -/
theorem Traced.restrict (h : w.Traced seen) (sub : ∀ database, seen' database → seen database)
    (present : seen' w.database)
    (rest : ∀ database, seen database →
      seen' database ∨ ∀ id, database.inferenceOf? id = none) : w.Traced seen' where
  documents := h.documents
  present := present
  bounded := fun database hs => h.bounded database (sub database hs)
  consumers := fun d hd entry he name => by
    rw [h.consumers d hd entry he name]
    refine or_congr_right ⟨?_, fun ⟨database, hs, through⟩ => ⟨database, sub database hs, through⟩⟩
    rintro ⟨database, hs, through⟩
    rcases rest database hs with hs | nothing
    · exact ⟨database, hs, through⟩
    · obtain ⟨inference, found, -⟩ := through
      rw [nothing] at found
      cases found

theorem traced_empty : Traced (fun database => database = {}) {} where
  documents := fun _ h => nomatch h
  present := rfl
  bounded := by
    rintro _ rfl _ _ found
    cases found
  consumers := fun _ h => nomatch h

/-! ## Edits -/

/-- Dropping the definitions of a source leaves those of the other documents as they are. -/
theorem Coherent.consumers_dropDefinitions (h : w.Coherent past) {d : OpenDocument}
    (hd : d ∈ w.documents) {source : Nat} (other : d.source ≠ source) {id : Nat}
    (hid : id ∈ d.definitions) (name : Dependency) :
    id ∈ (w.dropDefinitions source).1.graph.consumersOf name ↔
      id ∈ w.registry.graph.consumersOf name :=
  (h.dropDefinitions source).same.consumers id (h.not_mem_definitionsOf hd other id hid) name

theorem Traced.remove (h : w.Traced seen) (coherent : w.Coherent past) (key : Text) :
    (w.remove key).1.Traced seen := by
  rcases w.remove_cases key with ⟨-, eq⟩ | ⟨document, -, eq⟩
  · rw [eq]
    exact h
  · rw [eq]
    generalize document.source = source
    refine ⟨fun d hd => h.documents d (mem_without.1 hd).1, h.present, h.bounded,
      fun d hd entry he name => ?_⟩
    obtain ⟨before, other⟩ := mem_without.1 hd
    rw [← h.consumers d before entry he name]
    exact coherent.consumers_dropDefinitions before other
      (OpenDocument.mem_definitions_of_entry he) name

theorem Traced.add (h : w.Traced seen) (consistent : w.Consistent) (coherent : w.Coherent past)
    (key text : Text) (isBuiltin : Bool) : (w.add key text isBuiltin).1.Traced seen := by
  rw [add_eq]
  extract_lets source document before registered edited
  have mirrors := consistent.dropDefinitions source
  have next : before.1.next = w.registry.next := (coherent.dropDefinitions source).next
  have asRead : document.AsRead := ⟨rfl, List.length_range', List.nodup_range'⟩
  refine ⟨fun d hd => ?_, h.present,
    fun database hs id inference found =>
      Nat.lt_succ_of_lt (h.bounded database hs id inference found),
    fun d hd entry he name => ?_⟩
  · rcases mem_putDocument hd with rfl | ⟨hd, -⟩
    · exact asRead
    · exact h.documents d hd
  · show entry.2 ∈ registered.1.graph.consumersOf name ↔ _
    rw [Registry.mem_consumersOf_registerAll]
    rcases mem_putDocument hd with rfl | ⟨hd, other⟩
    · -- its revision is new, so nothing that was seen resolves it
      have unseen : ¬∃ database, seen database ∧ ResolvedThrough database document entry.2 name :=
        fun ⟨database, hs, inference, found, _⟩ =>
          Nat.lt_irrefl _ (h.bounded database hs _ inference found)
      have above := (List.mem_range'_1.1 (OpenDocument.mem_definitions_of_entry he)).1
      rw [or_iff_left unseen, or_iff_right ((mirrors.unknown above).2 name)]
      constructor
      · rintro ⟨other, ho, same, consumed⟩
        exact asRead.entry_eq ho he same ▸ consumed
      · exact fun consumed => ⟨entry, he, rfl, consumed⟩
    · have hid := OpenDocument.mem_definitions_of_entry he
      have below := (coherent.registered d hd).below _ hid
      have old : ¬∃ entry' ∈ document.revision.tree.definitions.zip
          (List.range' before.1.next document.revision.tree.definitions.length),
          entry'.2 = entry.2 ∧ name ∈ entry'.1.consumed := by
        rintro ⟨entry', hm, same, -⟩
        have above := (List.mem_range'_1.1 (List.of_mem_zip hm).2).1
        omega
      rw [or_iff_left old, ← h.consumers d hd entry he name]
      exact coherent.consumers_dropDefinitions hd other hid name

/-! ## Rebuilding -/

/-- What a rebuild keeps was resolved by the snapshot before. -/
theorem Coherent.resolvedThrough_reused (h : w.Coherent past) {d : OpenDocument}
    (hd : d ∈ w.documents) (reused : d ∉ w.resolvedDocuments) {id : Nat} {name : Dependency}
    (through : ResolvedThrough w.rebuild.database d id name) :
    ResolvedThrough w.database d id name := by
  have kept : w.reusable.contains d.revision.id = true := by
    by_contra unkept
    exact reused (List.mem_filter.2 ⟨hd, by simpa using unkept⟩)
  obtain ⟨inference, found⟩ := Option.isSome_iff_exists.1 kept
  have before := found
  rw [h.reusable hd] at before
  split at before
  · cases before
  · obtain ⟨made, resolved, entry, he, own, type, ht, same⟩ := through
    rw [h.inferenceOf_rebuild hd, found, Option.getD_some] at resolved
    obtain rfl := Option.some.inj resolved
    exact ⟨inference, before, entry, he, own, type, ht, same⟩

theorem Traced.rebuild (h : w.Traced seen) (coherent : w.Coherent past) :
    w.rebuild.Traced fun database => seen database ∨ database = w.rebuild.database where
  documents := h.documents
  present := .inr rfl
  bounded := by
    rintro database (hs | rfl) id inference found
    · exact h.bounded database hs id inference found
    · have entry : (id, inference) ∈ w.rebuild.database.inferences := Table.mem_of_get? found
      rw [coherent.inferences_rebuild] at entry
      obtain ⟨d, hd, same⟩ := List.mem_map.1 entry
      obtain rfl : d.revision.id = id := congrArg Prod.fst same
      exact coherent.numbered d hd
  consumers := fun d hd entry he name => by
    have hid := OpenDocument.mem_definitions_of_entry he
    rw [w.rebuild_tracked.consumers, h.consumers d hd entry he name, or_assoc]
    refine or_congr_right ⟨?_, ?_⟩
    · rintro (⟨database, hs, through⟩ | ⟨e, he', through⟩)
      · exact ⟨database, .inl hs, through⟩
      · obtain ⟨-, -, entry', hm, same, -⟩ := id through
        obtain rfl := coherent.document_of_number hd (List.mem_of_mem_filter he') hid
          (same ▸ OpenDocument.mem_definitions_of_entry hm)
        exact ⟨w.rebuild.database, .inr rfl, through⟩
    · rintro ⟨database, hs | rfl, through⟩
      · exact .inl ⟨database, hs, through⟩
      · by_cases resolved : d ∈ w.resolvedDocuments
        · exact .inr ⟨d, resolved, through⟩
        · exact .inl ⟨w.database, h.present, coherent.resolvedThrough_reused hd resolved through⟩

/-! ## Runs -/

/-- A database that was the snapshot at some point of a run. -/
def Snapshot (start : Workspace) (steps : List Step) (database : Database) : Prop :=
  ∃ earlier, earlier <+: steps ∧ database = (start.run earlier).database

theorem snapshot_append {start : Workspace} {steps : List Step} {step : Step}
    {database : Database} : Snapshot start (steps ++ [step]) database ↔
      Snapshot start steps database ∨ database = ((start.run steps).step step).database := by
  rw [← run_append]
  constructor
  · rintro ⟨earlier, before, rfl⟩
    rcases List.prefix_concat_iff.1 before with rfl | before
    · exact .inr rfl
    · exact .inl ⟨earlier, before, rfl⟩
  · rintro (⟨earlier, before, rfl⟩ | rfl)
    · exact ⟨earlier, before.trans (List.prefix_append steps [step]), rfl⟩
    · exact ⟨_, List.prefix_refl _, rfl⟩

theorem opened_traced (builtins : Bool) :
    (opened builtins).Traced (Snapshot (opened builtins) []) := by
  have start (database : Database) : Snapshot (opened builtins) [] database ↔
      database = (opened builtins).database := by
    constructor
    · rintro ⟨earlier, before, rfl⟩
      rw [List.prefix_nil.1 before]
      rfl
    · rintro rfl
      exact ⟨[], List.prefix_refl [], rfl⟩
  cases builtins with
  | false =>
    exact traced_empty.restrict (fun database => (start database).1) ((start _).2 rfl)
      fun database hs => .inl ((start database).2 hs)
  | true =>
    have empty := coherent_empty fun _ => False
    have rebuilt := (traced_empty.add consistent_empty empty Builtins.key Builtins.text true).rebuild
      (empty.add Builtins.key Builtins.text true)
    refine rebuilt.restrict (fun database hs => .inr ((start database).1 hs)) ((start _).2 rfl) ?_
    rintro database (rfl | rfl)
    · exact .inr fun _ => rfl
    · exact .inl ((start _).2 rfl)

/-- Behind every run, a definition consumes what it refers to and the types that some snapshot of
the run resolved it through. -/
theorem run_traced (builtins : Bool) (steps : List Step) :
    ((opened builtins).run steps).Traced (Snapshot (opened builtins) steps) := by
  induction steps using List.reverseRecOn with
  | nil => exact opened_traced builtins
  | append_singleton steps step ih =>
    have consistent := opened_run_consistent builtins steps
    have coherent := run_coherent builtins steps
    have later : Snapshot (opened builtins) (steps ++ [step]) = fun database =>
        Snapshot (opened builtins) steps database ∨
          database = (((opened builtins).run steps).step step).database :=
      funext fun _ => propext snapshot_append
    have edited {w : Workspace} (h : w.Traced (Snapshot (opened builtins) steps)) :
        w.Traced fun database => Snapshot (opened builtins) steps database ∨ database = w.database :=
      h.restrict (fun database hs => hs.elim id fun same => same ▸ h.present) (.inr rfl)
        fun database hs => .inl (.inl hs)
    rw [run_append, later]
    cases step with
    | add key text isBuiltin => exact edited (ih.add consistent coherent key text isBuiltin)
    | replace key text isBuiltin => exact edited (ih.add consistent coherent key text isBuiltin)
    | remove key => exact edited (ih.remove coherent key)
    | rebuild => exact ih.rebuild coherent

end Workspace

end GraphQL
