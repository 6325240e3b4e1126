import GraphQL.Document.Record
import GraphQL.Proofs.Document.Constituents

/-! # Pieces of trees

A tree is made of nodes, tokens and gaps. `Record.pieces` lists them for a tree that is spelled out
as a record, field by field. They are the same as those below the constituents of its root,
`Node.pieces_perm`; only delimiters stand together in a record, and around the items elsewhere. -/

namespace GraphQL

set_option autoImplicit false

open Recovery (Slot Gap)

variable {α : Type}

/-- A node spelled out, the place of a token, or a gap. -/
inductive Piece where
  | node (record : Record)
  | token (span : Span)
  | gap (gap : Gap Expectation)

namespace Record

mutual
def pieces : Record → List Piece
  | .absent => []
  | .flag _ => []
  | .text _ => []
  | .token t => [.token t.span]
  | .missing gap => [.gap gap]
  | .list items => piecesOf items
  | .node kind fields => .node (.node kind fields) :: fieldPieces fields
def piecesOf : List Record → List Piece
  | [] => []
  | r :: rest => r.pieces ++ piecesOf rest
def fieldPieces : List (String × Record) → List Piece
  | [] => []
  | (_, r) :: rest => r.pieces ++ fieldPieces rest
end

@[simp] theorem pieces_token (t : Token) : (Record.token t).pieces = [.token t.span] := by
  rw [pieces]

@[simp] theorem piecesOf_eq (items : List Record) : piecesOf items = items.flatMap pieces := by
  induction items with
  | nil => rw [piecesOf, List.flatMap_nil]
  | cons r items ih => rw [piecesOf, ih, List.flatMap_cons]

@[simp] theorem pieces_list (items : List Record) : (list items).pieces = items.flatMap pieces := by
  rw [pieces, piecesOf_eq]

@[simp] theorem pieces_flag (value : Bool) : (flag value).pieces = [] := by rw [pieces]

@[simp] theorem pieces_text (t : Text) : (text t).pieces = [] := by rw [pieces]

theorem pieces_node (kind : NodeKind) (fields : List (String × Record)) :
    (Record.node kind fields).pieces = .node (.node kind fields) :: fieldPieces fields := by
  rw [pieces]

@[simp] theorem fieldPieces_nil : fieldPieces [] = [] := by rw [fieldPieces]

@[simp] theorem fieldPieces_cons (name : String) (r : Record) (rest : List (String × Record)) :
    fieldPieces ((name, r) :: rest) = r.pieces ++ fieldPieces rest := by
  rw [fieldPieces]

@[simp] theorem pieces_optional (record : α → Record) (a : Option α) :
    (optional record a).pieces = a.toList.flatMap fun a => (record a).pieces := by
  cases a <;> simp [optional, pieces]

@[simp] theorem pieces_each (record : α → Record) (items : List α) :
    (each record items).pieces = items.flatMap fun a => (record a).pieces := by
  rw [each, pieces_list, List.flatMap_map]

end Record

/-! ## Pieces of constituents -/

def Child.pieces : Child → List Piece
  | .token t => [.token t.span]
  | .node n => n.record.pieces

namespace Constituent

def pieces : Constituent → List Piece
  | .plain child => child.pieces
  | .filled content => content.flatMap Child.pieces
  | .lacking gap => [.gap gap]

@[simp] theorem pieces_token (t : Token) : (token t).pieces = [.token t.span] := rfl

@[simp] theorem pieces_node (n : Node) : (node n).pieces = n.record.pieces := rfl

@[simp] theorem pieces_optionalToken (t : Option Token) :
    (optionalToken t).flatMap pieces = t.toList.flatMap fun t => [.token t.span] := by
  rw [optionalToken, List.flatMap_map]
  rfl

@[simp] theorem pieces_optionalNode (construct : α → Node) (a : Option α) :
    (optionalNode construct a).flatMap pieces =
      a.toList.flatMap fun a => (construct a).record.pieces := by
  rw [optionalNode, List.flatMap_map]
  rfl

@[simp] theorem pieces_nodes (construct : α → Node) (items : List α) :
    (nodes construct items).flatMap pieces = items.flatMap fun a => (construct a).record.pieces := by
  rw [nodes, List.flatMap_map]
  rfl

@[simp] theorem pieces_tokenSlot (t : Required Token) :
    (tokenSlot t).pieces = (Record.tokenSlot t).pieces := by
  cases t <;> simp [tokenSlot, slot, pieces, Child.pieces, Record.tokenSlot, Record.slot,
    Record.pieces]

@[simp] theorem pieces_nodeSlot (construct : α → Node) (a : Required α) :
    (nodeSlot construct a).pieces = (Record.slot (fun a => (construct a).record) a).pieces := by
  cases a <;> simp [nodeSlot, slot, pieces, Child.pieces, Record.slot, Record.pieces]

/-- A record holds both delimiters before the items. -/
theorem delimited_perm (construct : α → Node) (items : Delimited α) :
    ((Record.ends items).pieces ++ items.items.flatMap fun a => (construct a).record.pieces).Perm
      ((delimited construct items).flatMap pieces) := by
  have ends : (Record.ends items).pieces =
      .token items.opening.span :: (Record.tokenSlot items.closing).pieces := by
    simp [Record.ends]
  have around : (delimited construct items).flatMap pieces = .token items.opening.span ::
      ((items.items.flatMap fun a => (construct a).record.pieces) ++
        (Record.tokenSlot items.closing).pieces) := by
    simp [delimited]
  rw [ends, around, List.cons_append]
  exact List.perm_append_comm.cons _

theorem pieces_members (kind : NodeKind) (intro leading : String) (construct : α → Node)
    (list : MemberList α) :
    (Record.members kind intro leading (fun a => (construct a).record) list).pieces =
      .node (Record.members kind intro leading (fun a => (construct a).record) list) ::
        (members construct list).flatMap pieces := by
  simp [Record.members, Record.pieces_node, members, List.flatMap_assoc]

end Constituent

/-! ## Records of constructs that nest -/

theorem Definition.record_node (d : Definition) : d.node.record = d.record := by cases d <;> rfl

theorem Selection.record_node (s : Selection) : s.node.record = s.record := by cases s <;> rfl

theorem Selection.records_eq (selections : List Selection) :
    Selection.records selections = selections.map Selection.record :=
  eq_map_of_cons rfl (fun _ _ => rfl) selections

theorem Value.records_eq (values : List Value) : Value.records values = values.map Value.record :=
  eq_map_of_cons rfl (fun _ _ => rfl) values

theorem ObjectField.records_eq (fields : List ObjectField) :
    ObjectField.records fields = fields.map ObjectField.record :=
  eq_map_of_cons rfl (fun _ _ => rfl) fields

theorem SelectionSet.record_eq (set : SelectionSet) :
    SelectionSet.record set = .node .selectionSet
      [("braces", .ends set), ("selections", .each Selection.record set.items)] := by
  obtain ⟨opening, selections, closing⟩ := set
  rw [Record.each, ← Selection.records_eq]
  rfl

theorem Field.record_eq (field : Field SelectionSet) :
    Field.record field = .node .field [("alias", .optional Alias.record field.fieldAlias),
      ("name", .tokenSlot field.name), ("arguments", .optional Arguments.record field.arguments),
      ("directives", .optional Directives.record field.directives),
      ("selectionSet", .optional SelectionSet.record field.selectionSet)] := by
  obtain ⟨fieldAlias, name, arguments, directives, set⟩ := field
  cases set <;> rfl

theorem InlineFragment.record_eq (fragment : InlineFragment SelectionSet) :
    InlineFragment.record fragment = .node .inlineFragment [("dots", .token fragment.dots),
      ("typeCondition", .optional TypeCondition.record fragment.condition),
      ("directives", .optional Directives.record fragment.directives),
      ("selectionSet", .slot SelectionSet.record fragment.selectionSet)] := by
  obtain ⟨dots, condition, directives, set⟩ := fragment
  cases set <;> rfl

theorem Value.record_list (items : Delimited Value) :
    (Value.list items).record = .node .listValue
      [("brackets", .ends items), ("values", .each Value.record items.items)] := by
  obtain ⟨opening, values, closing⟩ := items
  rw [Record.each, ← Value.records_eq]
  rfl

theorem Value.record_object (fields : Delimited ObjectField) :
    (Value.object fields).record = .node .objectValue
      [("braces", .ends fields), ("fields", .each ObjectField.record fields.items)] := by
  obtain ⟨opening, fields, closing⟩ := fields
  rw [Record.each, ← ObjectField.records_eq]
  rfl

theorem ObjectField.record_mk (name : Token) (colon : Required Token) (value : Required Value) :
    (ObjectField.mk name colon value).record = .node .objectField [("name", .token name),
      ("colon", .tokenSlot colon), ("value", .slot Value.record value)] := by
  cases value <;> rfl

theorem NullableType.record_list (opening : Token) (item : Required TypeRef)
    (closing : Required Token) :
    (NullableType.list opening item closing).record = .node .listType
      [("brackets", .list [.token opening, .tokenSlot closing]),
        ("type", .slot TypeRef.record item)] := by
  cases item <;> rfl

/-! ## Pieces of nodes -/

theorem TypeRef.record_named (type : NamedType) :
    (TypeRef.nullable (.named type)).record = type.record := rfl

open Constituent

attribute [local simp] Node.record Node.constituents Constituent.directives
  Constituent.description Record.pieces_node

/-- The pieces of a node are the node itself and those of what it holds. -/
theorem Node.pieces_perm (n : Node) :
    n.record.pieces.Perm (.node n.record :: n.constituents.flatMap Constituent.pieces) := by
  cases n with
  | document d =>
    have children : (nodes Definition.node d.definitions).flatMap Constituent.pieces =
        d.definitions.flatMap fun a => a.record.pieces := by
      simp only [pieces_nodes, Definition.record_node]
    simp [Document.record, children, -pieces_nodes]
  | operation d => simp [OperationDefinition.record]
  | operationType t => simp [OperationType.record]
  | selectionSet s =>
    have children := delimited_perm Selection.node s
    simp only [Selection.record_node] at children
    simpa [SelectionSet.record_eq] using children
  | field f => simp [Field.record_eq]
  | fieldAlias a => simp [Alias.record]
  | arguments a => simpa [Arguments.record] using delimited_perm .argument a
  | argument a => simp [Argument.record]
  | spread s => simp [FragmentSpread.record]
  | inline f => simp [InlineFragment.record_eq]
  | fragment d => simp [FragmentDefinition.record]
  | typeCondition c => simp [TypeCondition.record, NamedType.node, TypeRef.record_named]
  | value v =>
    cases v with
    | list items =>
      simpa [Value.record_list, Value.constituents] using delimited_perm .value items
    | object fields =>
      simpa [Value.record_object, Value.constituents] using delimited_perm .objectField fields
    | var v => simp [Value.record, Variable.record, Value.constituents]
    | _ => simp [Value.record, Value.constituents]
  | objectField f => cases f with | mk => simp [ObjectField.record_mk, ObjectField.constituents]
  | variableDefinitions d =>
    simpa [VariableDefinition.listRecord] using delimited_perm .variableDefinition d
  | variableDefinition d => simp [VariableDefinition.record, Value.record]
  | defaultValue d => simp [DefaultValue.record]
  | type t =>
    cases t with
    | nullable t =>
      cases t with
      | named t => simp [TypeRef.record_named, NamedType.record, TypeRef.constituents]
      | list opening item closing =>
        have swap := @List.perm_append_comm _ (Record.tokenSlot closing).pieces
          (Record.slot TypeRef.record item).pieces
        simpa [TypeRef.record, NullableType.record_list, TypeRef.constituents] using swap
    | nonNull => simp [TypeRef.record, TypeRef.constituents]
  | directives d => simp [Directives.record]
  | directive d => simp [Directive.record]
  | description t => simp [descriptionRecord]
  | schema d => simp [SchemaDefinition.record]
  | schemaExtension d => simp [SchemaExtension.record]
  | rootOperationTypes r =>
    have entries : (slot (List.map fun root => .node (.rootOperationType root)) r.entries).pieces =
        (Record.slot (.each RootOperationType.record) r.entries).pieces := by
      cases r.entries <;> simp [slot, Constituent.pieces, Child.pieces, Record.slot, Record.pieces,
        List.flatMap_map]
    have swap := @List.perm_append_comm _ (Record.tokenSlot r.closing).pieces
      (Record.slot (.each RootOperationType.record) r.entries).pieces
    simpa [RootOperationTypes.record, entries] using swap
  | rootOperationType r =>
    simp [RootOperationType.record, NamedType.node, TypeRef.record_named]
  | typeDefinition d =>
    obtain ⟨description, keyword, name, body⟩ := d
    cases body <;> simp [TypeDefinition.record, TypeBody.parts, TypeBody.constituents,
      FieldedBody.parts, FieldedBody.constituents]
  | typeExtension d =>
    obtain ⟨extend, keyword, name, body⟩ := d
    cases body <;> simp [TypeExtension.record, TypeBody.parts, TypeBody.constituents,
      FieldedBody.parts, FieldedBody.constituents]
  | interfaces i => exact .of_eq (pieces_members _ _ _ NamedType.node i)
  | fieldDefinitions d =>
    simpa [FieldDefinition.listRecord] using delimited_perm .fieldDefinition d
  | fieldDefinition d => simp [FieldDefinition.record]
  | argumentDefinitions d =>
    simpa [InputValueDefinition.argumentsRecord] using delimited_perm .inputValueDefinition d
  | inputValueDefinition d => simp [InputValueDefinition.record]
  | unionMembers m => exact .of_eq (pieces_members _ _ _ NamedType.node m)
  | enumValueDefinitions d =>
    simpa [EnumValueDefinition.listRecord] using delimited_perm .enumValueDefinition d
  | enumValueDefinition d => simp [EnumValueDefinition.record]
  | inputFields f =>
    simpa [InputValueDefinition.fieldsRecord] using delimited_perm .inputValueDefinition f
  | directiveDefinition d => simp [DirectiveDefinition.record]
  | directiveLocations l => exact .of_eq (pieces_members _ _ _ .directiveLocation l)
  | directiveLocation l => simp [DirectiveLocation.record]

end GraphQL
