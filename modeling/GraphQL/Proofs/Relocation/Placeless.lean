import GraphQL.Dependency
import GraphQL.Proofs.Production.Isolation

/-! # What a text is read as, but for places

The same text under two source numbers is read as the same document, up to spans, and has the same
syntax errors: their spans only name another document. What a definition provides and what it refers
to does not depend on spans either. -/

namespace GraphQL

set_option autoImplicit false

open Recovery (Cursor Reading)

/-! ## Texts under several numbers -/

/-- Every token in no place at all. -/
def Relocation.nowhere : Relocation where
  front := #[]
  place _ := Span.nowhere
  place_between _ _ := rfl
  place_atStop _ := rfl
  place_join _ _ := rfl

/-- The same range of the document with another number. -/
def Span.renumber (source : Int) (s : Span) : Span := { s with source }

def Relocation.renumber (source : Int) : Relocation where
  front := #[]
  place := Span.renumber source
  place_between _ _ := rfl
  place_atStop _ := rfl
  place_join _ _ := rfl

/-- Under two numbers a text has the same tokens, where these are given the same places. -/
theorem Lexer.lexFrom_mapSpans {source source' : Int} {f g : Span → Span}
    (same : ∀ start stop, f ⟨source, start, stop⟩ = g ⟨source', start, stop⟩) (start : Nat)
    (t : Text) : (lexFrom source start t).map (Token.mapSpans f) =
      (lexFrom source' start t).map (Token.mapSpans g) := by
  fun_induction lexFrom source start t with
  | case1 start t h =>
    rw [lexFrom_nil source' start h]
    rfl
  | case2 start t u rest h found text next stop ih =>
    rw [lexFrom_step source' next stop h rfl rfl rfl, List.map_cons, List.map_cons, ← ih]
    exact congrArg (· :: _) (congrArg (Token.mk _ _) (same next stop))

theorem lex_renumber (source source' : Int) (text : Text) :
    (lex source text).map (Relocation.renumber source').token = lex source' text := by
  have same : ∀ start stop,
      Span.renumber source' ⟨source, start, stop⟩ = id (Span.mk source' start stop) := fun _ _ => rfl
  exact (Lexer.lexFrom_mapSpans same 0 text).trans (List.map_id _)

/-- The source number of a text makes no difference to its document but for the places. -/
theorem parse_placeless (source source' : Int) (text : Text) :
    (parse source text).tree.placeless = (parse source' text).tree.placeless := by
  let m := Relocation.nowhere
  have tokens : m.cursor (Cursor.start (lex source text).toArray) =
      m.cursor (Cursor.start (lex source' text).toArray) := by
    have place : ∀ start stop,
        m.place ⟨source, start, stop⟩ = m.place ⟨source', start, stop⟩ := fun _ _ => rfl
    have same : (lex source text).map m.token = (lex source' text).map m.token :=
      Lexer.lexFrom_mapSpans place 0 text
    simp only [Relocation.cursor, Cursor.start, List.map_toArray, same]
  have read := congrArg (fun c => (Production.definitionsFrom c).value) tokens
  rw [Production.definitionsFrom_cursor, Production.definitionsFrom_cursor] at read
  exact congrArg Document.mk read

/-- Under another number a text has the same syntax errors, at the same places of the document with
that number. -/
theorem parse_renumber (source source' : Int) (text : Text) :
    (parse source' text).diagnostics =
      (parse source text).diagnostics.map (Diagnostic.mapSpans (Span.renumber source')) := by
  let m := Relocation.renumber source'
  let c := Cursor.start (lex source text).toArray
  have tokens : (lex source' text).toArray = (m.cursor c).tokens := by
    simp only [c, m, Relocation.cursor, Cursor.start, List.map_toArray, lex_renumber]
    exact (Array.empty_append ..).symm
  have read : Production.definitionsFrom (Cursor.start (lex source' text).toArray) =
      m.reading (List.map (Definition.mapSpans m.place)) (Production.definitionsFrom c) := by
    rw [tokens]
    exact Production.definitionsFrom_cursor m c
  have definitions : (parse source' text).tree.definitions =
      (parse source text).tree.definitions.map (Definition.mapSpans m.place) :=
    congrArg Reading.value read
  have unrecognized : (parse source' text).unrecognized =
      (parse source text).unrecognized.map (Recovery.Run.mapSpans m.place) := by
    simp only [parse_eq, read]
    rw [tokens]
    exact m.runs_cursor ⟨_, (Production.definitionsFrom c).position⟩
      (Production.definitionsFrom c).skipped
  have gaps : (parse source' text).tree.outline.gaps =
      (parse source text).tree.outline.gaps.map (mapGap m.place) := by
    rw [← Outline.gaps_mapSpans, ← Document.outline_mapSpans]
    exact congrArg (fun ds => (Document.mk ds).outline.gaps) definitions
  have ordered : ∀ a b : Span, (m.place a).start ≤ (m.place b).start ↔ a.start ≤ b.start :=
    fun _ _ => Iff.rfl
  rw [Parsed.diagnostics, unrecognized]
  exact syntaxErrors_mapSpans ordered gaps _

/-! ## Names -/

variable (f : Span → Span)

@[simp] theorem textOf?_mapTokenSlot (name : Required Token) :
    textOf? (mapTokenSlot f name) = textOf? name := by
  cases name <;> rfl

theorem Definition.product?_mapSpans (d : Definition) : (d.mapSpans f).product? = d.product? := by
  cases d <;> simp [Definition.mapSpans, product?, FragmentDefinition.mapSpans,
    DirectiveDefinition.mapSpans, TypeDefinition.mapSpans, TypeExtension.mapSpans]

theorem OperationDefinition.kind_mapSpans (d : OperationDefinition) :
    (d.mapSpans f).kind = d.kind := by
  obtain ⟨type, name, variableDefinitions, directives, set⟩ := d
  cases type <;> rfl

theorem Node.references_mapSpans (n : Node) : (n.mapSpans f).references = n.references := by
  cases n with
  | operation d => simp [Node.mapSpans, references, d.kind_mapSpans]
  | directive d => simp [Node.mapSpans, references, Directive.mapSpans]
  | type t =>
    cases t with
    | nonNull type bang => rfl
    | nullable type =>
      cases type with
      | named type => rfl
      | list opening item closing =>
        rw [Node.mapSpans, TypeRef.mapSpans, NullableType.mapSpans_list]
        rfl
  | _ => rfl

namespace Outline

mutual
theorem nodes_mapSpans : (o : Outline) → (o.mapSpans f).nodes = o.nodes.map (Node.mapSpans f)
  | .token t => by simp [nodes]
  | .missing gap => by simp [mapSpans, nodes]
  | .present content => by simp [mapSpans, nodes, nodesOf_mapSpans content]
  | .node role n parts => by simp only [mapSpans, nodes, nodesOf_mapSpans parts, List.map_cons]
theorem nodesOf_mapSpans :
    (os : List Outline) → nodesOf (mapSpansAll f os) = (nodesOf os).map (Node.mapSpans f)
  | [] => by simp [mapSpansAll, nodesOf]
  | o :: rest => by simp [mapSpansAll, nodesOf, nodes_mapSpans o, nodesOf_mapSpans rest]
end

end Outline

theorem Definition.consumed_mapSpans (d : Definition) : (d.mapSpans f).consumed = d.consumed := by
  have references : (((d.mapSpans f).outline .definition).nodes.flatMap Node.references) =
      (d.outline .definition).nodes.flatMap Node.references := by
    rw [d.outline_mapSpans, Outline.nodes_mapSpans, List.flatMap_map]
    exact congrArg (List.flatMap · _) (funext fun n => n.references_mapSpans f)
  rw [consumed, consumed, references, d.product?_mapSpans]

end GraphQL
