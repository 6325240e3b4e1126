import GraphQL.Database
import GraphQL.Diagnostic.Syntax
import GraphQL.Workspace.Builtins
import GraphQL.Workspace.Registry
import GraphQL.Workspace.SourceTable

/-! # Workspaces

A `Workspace` holds documents by key, their syntax errors, and a database of them. Documents can be
added, replaced and removed; each edit tells the keys of the documents whose resolutions it makes
stale. `Workspace.rebuild` makes a new database, for which it resolves the stale documents again and
reuses the resolutions of all others. -/

namespace GraphQL

set_option autoImplicit false

/-- Adds an element behind a list that does not hold it yet. -/
def appendNew {α : Type} [BEq α] (list : List α) (a : α) : List α :=
  if list.contains a then list else list ++ [a]

structure OpenDocument where
  key : Text
  source : Nat
  text : Text
  /-- Part of the language rather than of a user's sources -/
  isBuiltin : Bool
  revision : Revision
  tokenCount : Nat
  diagnostics : List Diagnostic
  /-- The numbers of its definitions, in source order -/
  definitions : List Nat

structure Workspace where
  sources : SourceTable := {}
  documents : List OpenDocument := []
  registry : Registry := {}
  /-- Source numbers of the stale documents, in the order in which they were marked -/
  stale : List Nat := []
  database : Database := {}
  nextRevision : Nat := 0

namespace Workspace

def documentOf? (w : Workspace) (source : Nat) : Option OpenDocument :=
  w.documents.find? fun d => d.source == source

def document? (w : Workspace) (key : Text) : Option OpenDocument :=
  (w.sources.id? key).bind w.documentOf?

/-- The syntax errors of a document; none for an unknown key. -/
def diagnostics (w : Workspace) (key : Text) : List Diagnostic :=
  ((w.document? key).map OpenDocument.diagnostics).getD []

def keys (w : Workspace) : List Text := w.documents.map OpenDocument.key

def keyOf? (w : Workspace) (source : Nat) : Option Text := w.sources.key? source

/-- The keys of the stale documents. -/
def pending (w : Workspace) : List Text :=
  w.stale.filterMap fun source => (w.documentOf? source).map OpenDocument.key

/-! ## Edits -/

/-- Puts a document in the place of the one with its source number, or else last. -/
def putDocument (document : OpenDocument) (documents : List OpenDocument) : List OpenDocument :=
  if documents.any fun d => d.source == document.source then
    documents.map fun d => if d.source == document.source then document else d
  else documents ++ [document]

def ownersOf (w : Workspace) (definitions : List Nat) : List OpenDocument :=
  definitions.filterMap fun id => (w.registry.owners.get? id).bind w.documentOf?

/-- Marks the documents that own stale definitions, and gives their keys and that of the edited
document. -/
def markStale (w : Workspace) (definitions : List Nat) (edited : Text) :
    Workspace × List Text :=
  let owners := w.ownersOf definitions
  ({ w with stale := (owners.map OpenDocument.source).foldl appendNew w.stale },
    appendNew ((owners.map OpenDocument.key).foldl appendNew []) edited)

/-- Drops the definitions of the document with a source number, and tells what that makes stale. -/
def dropDefinitions (w : Workspace) (source : Nat) : Registry × List Nat :=
  match w.documentOf? source with
  | none => (w.registry, [])
  | some document => w.registry.unregisterAll document.definitions

/-- Reads a document and puts it under a key, in place of the one that was there. Gives the keys of
the stale documents, this one included. -/
def add (w : Workspace) (key text : Text) (isBuiltin : Bool) : Workspace × List Text :=
  let (sources, source) := w.sources.intern key
  let (registry, dropped) := w.dropDefinitions source
  let parsed := parse source text
  let definitions := parsed.tree.definitions
  let (next, stale) := registry.registerAll source definitions dropped
  let document : OpenDocument :=
    { key, source, text, isBuiltin
      revision := ⟨w.nextRevision, parsed.tree⟩
      tokenCount := parsed.tokens.size
      diagnostics := parsed.diagnostics
      definitions := List.range' registry.next definitions.length }
  let w :=
    { w with
      sources
      documents := putDocument document w.documents
      registry := next
      nextRevision := w.nextRevision + 1 }
  let (w, keys) := w.markStale stale key
  ({ w with stale := appendNew w.stale source }, keys)

/-- Removes a document. Gives the keys of the stale documents, this one included; none if there is
no such document. -/
def remove (w : Workspace) (key : Text) : Workspace × List Text :=
  match w.document? key with
  | none => (w, [])
  | some document =>
    let (registry, stale) := w.registry.unregisterAll document.definitions
    { w with
      registry
      documents := w.documents.filter fun d => d.source != document.source
      stale := w.stale.filter fun source => source != document.source }.markStale stale key

/-! ## Snapshots -/

/-- The inferences that are still good: those of documents that are not stale. -/
def reusable (w : Workspace) : Table Nat Inference :=
  ⟨w.documents.filterMap fun d =>
    if w.stale.contains d.source then none
    else (w.database.inferenceOf? d.revision.id).map fun inference => (d.revision.id, inference)⟩

/-- Notes the types that the definitions of a document were resolved through. -/
def trackDocument (database : Database) (registry : Registry) (document : OpenDocument) :
    Registry :=
  match database.inferenceOf? document.revision.id with
  | none => registry
  | some inference =>
    (document.revision.tree.definitions.zip document.definitions).foldl
      (fun registry (definition, id) =>
        let types := inference.referencedTypes.get (definition.node.id document.revision.id)
        registry.trackTypes id types) registry

/-- Makes a database of the current documents. -/
def rebuild (w : Workspace) : Workspace :=
  let reuse := w.reusable
  let database := Database.build (w.documents.map OpenDocument.revision) reuse
  let resolved := w.documents.filter fun d => !reuse.contains d.revision.id
  { w with
    database
    registry := resolved.foldl (trackDocument database) w.registry
    stale := [] }

def withBuiltins : Workspace := (add {} Builtins.key Builtins.text true).1.rebuild

end Workspace

end GraphQL
