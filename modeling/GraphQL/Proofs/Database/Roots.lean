import GraphQL.Proofs.Database.Lookups
import GraphQL.Production.Document

/-! # Root types

A schema definition and its extensions name the types that operations start from. The first entry
for a kind of operations that has a type counts, and all schema definitions come before all
extensions.

* `Index.build_rootTypes`: the entries of an index stand in that order,
* `firstNames_iff`: a lookup finds the first entry that names a type,
* `Database.rootType_cases`: what the root type of a snapshot is, with such an entry and without.

Where no entry names a type, an extension counts as a schema, although nothing may be there that it
extends. -/

namespace GraphQL

set_option autoImplicit false

/-! ## Entries in order -/

/-- All definitions of some documents, in order. -/
def allDefinitions (revisions : List Revision) : List Definition :=
  revisions.flatMap fun r => r.tree.definitions

/-- The entries of the schema definitions of some documents, then those of the extensions. -/
def rootEntriesOf (revisions : List Revision) : List RootOperationType :=
  ((allDefinitions revisions).filterMap Definition.schema?).flatMap
      (fun d => Index.rootEntries d.roots.value?) ++
    ((allDefinitions revisions).filterMap Definition.schemaExtension?).flatMap
      fun d => Index.rootEntries d.roots

def HasSchema (revisions : List Revision) : Prop :=
  ∃ d ∈ allDefinitions revisions, d.schema?.isSome = true

def ExtendsSchema (revisions : List Revision) : Prop :=
  ∃ d ∈ allDefinitions revisions, d.schemaExtension?.isSome = true

variable {δ : Type} {revisions : List Revision}

theorem map_value_located (pick : Definition → Option δ) (revisions : List Revision) :
    (located pick (Index.filed revisions)).map Located.value =
      (allDefinitions revisions).filterMap pick := by
  have own (entry : Nat × Definition) :
      ((pick entry.2).map (Located.mk entry.1)).map Located.value = pick entry.2 := by
    cases pick entry.2 <;> rfl
  rw [located, List.map_filterMap, Index.filed, allDefinitions, List.filterMap_flatMap,
    List.filterMap_flatMap]
  refine List.flatMap_congr fun r _ => ?_
  rw [List.filterMap_map]
  exact List.filterMap_congr fun d _ => own (r.id, d)

theorem filterMap_eq_nil_of_not_exists {pick : Definition → Option δ} {list : List Definition}
    (none : ¬∃ d ∈ list, (pick d).isSome = true) : list.filterMap pick = [] :=
  List.filterMap_eq_nil_iff.2 fun d hd => Option.not_isSome_iff_eq_none.1 fun h => none ⟨d, hd, h⟩

theorem located_isEmpty (pick : Definition → Option δ) (revisions : List Revision) :
    (located pick (Index.filed revisions)).isEmpty = true ↔
      ¬∃ d ∈ allDefinitions revisions, (pick d).isSome = true := by
  rw [List.isEmpty_iff, ← List.map_eq_nil_iff (f := Located.value), map_value_located]
  refine ⟨fun empty ⟨d, hd, h⟩ => ?_, filterMap_eq_nil_of_not_exists⟩
  rw [List.filterMap_eq_nil_iff.1 empty d hd] at h
  cases h

theorem rootEntriesOf_eq_nil (undefined : ¬HasSchema revisions)
    (plain : ¬ExtendsSchema revisions) : rootEntriesOf revisions = [] := by
  rw [rootEntriesOf, filterMap_eq_nil_of_not_exists undefined,
    filterMap_eq_nil_of_not_exists plain]
  rfl

namespace Index

/-- The entries of an index are those of its documents. -/
theorem build_rootTypes (revisions : List Revision) :
    (build revisions).rootTypes = rootEntriesOf revisions := by
  have lists := (build_filled revisions).lists
  rw [rootTypes, lists.schemas, lists.schemaExtensions, rootEntriesOf, ← map_value_located,
    ← map_value_located, List.flatMap_map, List.flatMap_map]

/-- An index of documents without any schema and any extension has the conventional root types. -/
theorem build_conventional (revisions : List Revision) :
    ((build revisions).schemas.isEmpty && (build revisions).schemaExtensions.isEmpty) = true ↔
      ¬HasSchema revisions ∧ ¬ExtendsSchema revisions := by
  have lists := (build_filled revisions).lists
  rw [Bool.and_eq_true, lists.schemas, lists.schemaExtensions]
  exact and_congr (located_isEmpty _ revisions) (located_isEmpty _ revisions)

end Index

/-! ## The first entry -/

/-- The entry is for a kind of operations, and its type is there and has this name. -/
def RootOperationType.Names (entry : RootOperationType) (kind : OperationKind) (name : Text) :
    Prop := entry.operation.kind = kind ∧ ∃ type, entry.type = .present type ∧ type.name.text = name

/-- Of some entries, the first that names any type for a kind of operations names this one. -/
def FirstNames (entries : List RootOperationType) (kind : OperationKind) (name : Text) : Prop :=
  ∃ before entry after, entries = before ++ entry :: after ∧ entry.Names kind name ∧
    ∀ earlier ∈ before, ∀ other, ¬earlier.Names kind other

/-- The type that an entry names for a kind of operations, if it names any. -/
def RootOperationType.named? (kind : OperationKind) (entry : RootOperationType) : Option Text :=
  if entry.operation.kind = kind then entry.type.value?.map fun type => type.name.text else none

variable {kind : OperationKind} {name : Text} {entries : List RootOperationType}

theorem RootOperationType.names_iff {entry : RootOperationType} :
    entry.named? kind = some name ↔ entry.Names kind name := by
  unfold named? Names
  cases entry.type <;> simp [Recovery.Slot.value?]

theorem firstNames_iff :
    FirstNames entries kind name ↔
      entries.findSome? (RootOperationType.named? kind) = some name := by
  simp only [FirstNames, ← RootOperationType.names_iff, List.findSome?_eq_some_iff,
    Option.eq_none_iff_forall_ne_some, ne_eq]

theorem not_firstNames_iff :
    (∀ name, ¬FirstNames entries kind name) ↔
      entries.findSome? (RootOperationType.named? kind) = none := by
  simp only [firstNames_iff, Option.eq_none_iff_forall_ne_some, ne_eq]

/-- Only schema definitions and extensions have entries. -/
theorem FirstNames.declared (h : FirstNames (rootEntriesOf revisions) kind name) :
    HasSchema revisions ∨ ExtendsSchema revisions := by
  by_contra neither
  rw [not_or] at neither
  obtain ⟨before, entry, after, entries, -⟩ := h
  rw [rootEntriesOf_eq_nil neither.1 neither.2] at entries
  simp at entries

/-! ## Root types of snapshots -/

namespace Index

/-- Where documents have a schema or an extension, the entries are gone through in order. -/
theorem rootType_of_declared (declared : HasSchema revisions ∨ ExtendsSchema revisions)
    (kind : OperationKind) : (build revisions).rootType? kind =
      (rootEntriesOf revisions).findSome? (RootOperationType.named? kind) := by
  rw [rootType?, if_neg, build_rootTypes]
  · rfl
  · exact fun conventional => declared.elim ((build_conventional revisions).1 conventional).1
      ((build_conventional revisions).1 conventional).2

theorem rootType_of_undeclared (undefined : ¬HasSchema revisions)
    (plain : ¬ExtendsSchema revisions) (kind : OperationKind) :
    (build revisions).rootType? kind = some kind.typeName := by
  rw [rootType?, if_pos ((build_conventional revisions).2 ⟨undefined, plain⟩)]

end Index

/-- The root type for a kind of operations is named by the first entry for it that has a type, where
the entries of all schema definitions stand before those of all extensions. Where there is no such
entry, there is no root type if any document has a schema definition, nor if any has an extension;
and otherwise it has the conventional name. -/
theorem Database.rootType_cases (revisions : List Revision) (reuse : Table Nat Inference)
    (kind : OperationKind) :
    let root := (Database.build revisions reuse).index.rootType? kind
    (∀ name, FirstNames (rootEntriesOf revisions) kind name → root = some name) ∧
    ((∀ name, ¬FirstNames (rootEntriesOf revisions) kind name) →
      (HasSchema revisions → root = none) ∧
      (¬HasSchema revisions → ExtendsSchema revisions → root = none) ∧
      (¬HasSchema revisions → ¬ExtendsSchema revisions → root = some kind.typeName)) := by
  intro root
  refine ⟨fun name first => ?_, fun unnamed => ?_⟩
  · exact (Index.rootType_of_declared first.declared kind).trans (firstNames_iff.1 first)
  · have none (declared : HasSchema revisions ∨ ExtendsSchema revisions) : root = none :=
      (Index.rootType_of_declared declared kind).trans (not_firstNames_iff.1 unnamed)
    exact ⟨fun defined => none (.inl defined), fun _ extended => none (.inr extended),
      fun undefined plain => Index.rootType_of_undeclared undefined plain kind⟩

/-- An extension that stands before any definition. -/
def extendedRoots : Revision :=
  ⟨1, (parse 1 "extend schema \x7b query: Early mutation: Change \x7d").tree⟩

/-- Two entries for queries, and one for mutations that has no type. -/
def definedRoots : Revision :=
  ⟨2, (parse 2 "schema \x7b query: First query: Second mutation: \x7d").tree⟩

/-- The definition goes before the extension, an entry without type is passed over, and a schema or
an extension alone leaves other kinds without a root type. -/
theorem rootTypes_of_texts :
    (FirstNames (rootEntriesOf [extendedRoots, definedRoots]) .query "First" ∧
      (Database.build [extendedRoots, definedRoots] {}).index.rootType? .query = some "First") ∧
    (FirstNames (rootEntriesOf [extendedRoots, definedRoots]) .mutation "Change" ∧
      (Database.build [extendedRoots, definedRoots] {}).index.rootType? .mutation = some "Change") ∧
    ((∀ name, ¬FirstNames (rootEntriesOf [extendedRoots, definedRoots]) .subscription name) ∧
      HasSchema [extendedRoots, definedRoots] ∧
      (Database.build [extendedRoots, definedRoots] {}).index.rootType? .subscription = none) ∧
    ((∀ name, ¬FirstNames (rootEntriesOf [extendedRoots]) .subscription name) ∧
      ¬HasSchema [extendedRoots] ∧ ExtendsSchema [extendedRoots] ∧
      (Database.build [extendedRoots] {}).index.rootType? .subscription = none) ∧
    ((∀ name, ¬FirstNames (rootEntriesOf []) .query name) ∧ ¬HasSchema [] ∧ ¬ExtendsSchema [] ∧
      (Database.build [] {}).index.rootType? .query = some "Query") := by
  obtain ⟨query, mutation, subscription, alone⟩ :
      (rootEntriesOf [extendedRoots, definedRoots]).findSome? (RootOperationType.named? .query) =
        some "First" ∧
      (rootEntriesOf [extendedRoots, definedRoots]).findSome? (RootOperationType.named? .mutation) =
        some "Change" ∧
      (rootEntriesOf [extendedRoots, definedRoots]).findSome?
        (RootOperationType.named? .subscription) = none ∧
      (rootEntriesOf [extendedRoots]).findSome? (RootOperationType.named? .subscription) =
        none := by
    decide +kernel
  obtain ⟨defined, undefined, extended⟩ : HasSchema [extendedRoots, definedRoots] ∧
      ¬HasSchema [extendedRoots] ∧ ExtendsSchema [extendedRoots] := by
    unfold HasSchema ExtendsSchema
    decide +kernel
  have empty (name : Text) : ¬FirstNames (rootEntriesOf []) .query name :=
    not_firstNames_iff.2 rfl name
  have bare : ¬HasSchema [] := by unfold HasSchema; decide
  have plain : ¬ExtendsSchema [] := by unfold ExtendsSchema; decide
  have unnamed := not_firstNames_iff.2 subscription
  have unnamed' := not_firstNames_iff.2 alone
  exact ⟨⟨firstNames_iff.2 query, (Database.rootType_cases _ _ _).1 _ (firstNames_iff.2 query)⟩,
    ⟨firstNames_iff.2 mutation, (Database.rootType_cases _ _ _).1 _ (firstNames_iff.2 mutation)⟩,
    ⟨unnamed, defined, ((Database.rootType_cases _ _ _).2 unnamed).1 defined⟩,
    ⟨unnamed', undefined, extended,
      ((Database.rootType_cases _ _ _).2 unnamed').2.1 undefined extended⟩,
    empty, bare, plain, ((Database.rootType_cases _ _ _).2 empty).2.2 bare plain⟩

/-- An extension that names no types, beside a type of the conventional name. -/
def linkedSchema : Revision := ⟨1, (parse 1 "extend schema @link type Query \x7b a: Int \x7d").tree⟩

/-- No schema is defined and no entry names a type, but queries do not start from the type of the
conventional name. -/
theorem linkedSchema_no_root :
    ¬HasSchema [linkedSchema] ∧ (∀ name, ¬FirstNames (rootEntriesOf [linkedSchema]) .query name) ∧
      (Database.build [linkedSchema] {}).index.rootType? .query ≠ some "Query" := by
  refine ⟨?_, not_firstNames_iff.2 ?_, ?_⟩
  · unfold HasSchema
    decide +kernel
  · decide +kernel
  · decide +kernel

end GraphQL
