import GraphQL.Proofs.Document.Relocation
import GraphQL.Proofs.Document.WellFormed

/-! # What does not depend on places

The outline of a relocated construct is the relocated outline, so that it holds the relocated tokens
and nests as deep. Well-formedness does not depend on spans at all. -/

namespace GraphQL

set_option autoImplicit false

open Outline

variable {α β δ : Type} (f : Span → Span)

/-! ## Outlines -/

def Node.mapSpans : Node → Node
  | .document d => .document (d.mapSpans f)
  | .operation d => .operation (d.mapSpans f)
  | .operationType t => .operationType (t.mapSpans f)
  | .selectionSet s => .selectionSet (SelectionSet.mapSpans f s)
  | .field d => .field (d.mapSpans f)
  | .fieldAlias a => .fieldAlias (a.mapSpans f)
  | .arguments a => .arguments (Arguments.mapSpans f a)
  | .argument a => .argument (a.mapSpans f)
  | .spread s => .spread (s.mapSpans f)
  | .inline d => .inline (d.mapSpans f)
  | .fragment d => .fragment (d.mapSpans f)
  | .typeCondition c => .typeCondition (c.mapSpans f)
  | .value v => .value (v.mapSpans f)
  | .objectField d => .objectField (d.mapSpans f)
  | .variableDefinitions d => .variableDefinitions (d.mapSpans f (VariableDefinition.mapSpans f))
  | .variableDefinition d => .variableDefinition (d.mapSpans f)
  | .defaultValue d => .defaultValue (d.mapSpans f)
  | .type t => .type (t.mapSpans f)
  | .directives d => .directives (Directives.mapSpans f d)
  | .directive d => .directive (d.mapSpans f)
  | .description t => .description (t.mapSpans f)
  | .schema d => .schema (d.mapSpans f)
  | .schemaExtension d => .schemaExtension (d.mapSpans f)
  | .rootOperationTypes r => .rootOperationTypes (r.mapSpans f)
  | .rootOperationType r => .rootOperationType (r.mapSpans f)
  | .typeDefinition d => .typeDefinition (d.mapSpans f)
  | .typeExtension d => .typeExtension (d.mapSpans f)
  | .interfaces m => .interfaces (m.mapSpans f (NamedType.mapSpans f))
  | .fieldDefinitions d => .fieldDefinitions (d.mapSpans f (FieldDefinition.mapSpans f))
  | .fieldDefinition d => .fieldDefinition (d.mapSpans f)
  | .argumentDefinitions d => .argumentDefinitions (d.mapSpans f (InputValueDefinition.mapSpans f))
  | .inputValueDefinition d => .inputValueDefinition (d.mapSpans f)
  | .unionMembers m => .unionMembers (m.mapSpans f (NamedType.mapSpans f))
  | .enumValueDefinitions d => .enumValueDefinitions (d.mapSpans f (EnumValueDefinition.mapSpans f))
  | .enumValueDefinition d => .enumValueDefinition (d.mapSpans f)
  | .inputFields d => .inputFields (d.mapSpans f (InputValueDefinition.mapSpans f))
  | .directiveDefinition d => .directiveDefinition (d.mapSpans f)
  | .directiveLocations m => .directiveLocations (m.mapSpans f (DirectiveLocation.mapSpans f))
  | .directiveLocation l => .directiveLocation (l.mapSpans f)

namespace Outline

mutual
def mapSpans (f : Span → Span) : Outline → Outline
  | .token t => .token (t.mapSpans f)
  | .missing gap => .missing (mapGap f gap)
  | .present content => .present (mapSpansAll f content)
  | .node role n parts => .node role (n.mapSpans f) (mapSpansAll f parts)
def mapSpansAll (f : Span → Span) : List Outline → List Outline
  | [] => []
  | o :: rest => o.mapSpans f :: mapSpansAll f rest
end

theorem mapSpansAll_eq (os : List Outline) : mapSpansAll f os = os.map (mapSpans f) := by
  induction os with
  | nil => rfl
  | cons o os ih => rw [mapSpansAll, ih, List.map_cons]

@[simp] theorem mapSpans_token (t : Token) : (Outline.token t).mapSpans f = .token (t.mapSpans f) := by
  rw [mapSpans]

@[simp] theorem mapSpans_node (role : Role) (n : Node) (parts : List Outline) :
    (Outline.node role n parts).mapSpans f =
      .node role (n.mapSpans f) (parts.map (mapSpans f)) := by rw [mapSpans, mapSpansAll_eq]

/-! ### Shapes -/

theorem map_optional {outline : α → Outline} {outline' : β → Outline} {part : α → β} {a : Option α}
    (h : ∀ x, outline' (part x) = (outline x).mapSpans f) :
    optional outline' (a.map part) = (optional outline a).map (mapSpans f) := by
  cases a with
  | none => rfl
  | some x => simp [optional, h]

@[simp] theorem map_optionalToken (t : Option Token) :
    optionalToken (t.map (Token.mapSpans f)) = (optionalToken t).map (mapSpans f) :=
  map_optional f fun t => (mapSpans_token f t).symm

theorem map_slot {content : α → List Outline} {content' : β → List Outline} {part : α → β}
    {a : Required α} (h : ∀ x, content' (part x) = (content x).map (mapSpans f)) :
    slot content' (mapSlot f part a) = (slot content a).mapSpans f := by
  cases a with
  | present x => rw [mapSlot, slot, slot, mapSpans, mapSpansAll_eq, h]
  | missing gap => rw [mapSlot, slot, slot, mapSpans]

theorem map_single {outline : α → Outline} {outline' : β → Outline} {part : α → β}
    {a : Required α} (h : ∀ x ∈ a.value?, outline' (part x) = (outline x).mapSpans f) :
    single outline' (mapSlot f part a) = (single outline a).mapSpans f := by
  cases a with
  | present x => simp [single, mapSlot, slot, mapSpans, mapSpansAll_eq, h x rfl]
  | missing gap => simp [single, mapSlot, slot, mapSpans]

@[simp] theorem map_tokenSlot (t : Required Token) :
    tokenSlot (mapTokenSlot f t) = (tokenSlot t).mapSpans f :=
  map_single f fun t _ => (mapSpans_token f t).symm

theorem map_delimited {outline : α → Outline} {outline' : β → Outline} {part : α → β}
    {items : Delimited α} (h : ∀ x ∈ items.items, outline' (part x) = (outline x).mapSpans f) :
    delimited outline' (items.mapSpans f part) = (delimited outline items).map (mapSpans f) := by
  have same : items.items.map (fun x => outline' (part x)) =
      items.items.map fun x => (outline x).mapSpans f := List.map_congr_left h
  simp [delimited, Delimited.mapSpans, map_tokenSlot, Function.comp_def, same]

theorem map_members {outline : α → Outline} {outline' : β → Outline} {part : α → β}
    {list : MemberList α} (h : ∀ x, outline' (part x) = (outline x).mapSpans f) :
    members outline' (list.mapSpans f part) = (members outline list).map (mapSpans f) := by
  have single (a : Required α) :
      single outline' (mapSlot f part a) = (single outline a).mapSpans f := map_single f fun x _ => h x
  simp [members, MemberList.mapSpans, map_optionalToken, single, List.flatMap_map, List.map_flatMap]

end Outline

/-! ## Types and values -/

theorem NamedType.outline_mapSpans (role : Role) (type : NamedType) :
    (type.mapSpans f).outline role = (type.outline role).mapSpans f := by
  simp [NamedType.outline, NamedType.mapSpans, Node.mapSpans, TypeRef.mapSpans, NullableType.mapSpans]

theorem TypeRef.hereditary_outline :
    TypeRef.Hereditary
      (fun type => ∀ role, (type.mapSpans f).outline role = (type.outline role).mapSpans f)
      (fun type => ∀ role, (type.mapSpans f).outline role = (type.outline role).mapSpans f) where
  named type role := type.outline_mapSpans f role
  list opening item closing inner role := by
    rw [NullableType.mapSpans_list, NullableType.outline_list, NullableType.outline_list,
      map_tokenSlot, map_single f fun type here => inner type here .type]
    simp [Node.mapSpans, TypeRef.mapSpans, NullableType.mapSpans_list]
  nullable type h role := h role
  nonNull type bang h role := by
    simp [TypeRef.mapSpans, TypeRef.outline, Node.mapSpans, h]

theorem TypeRef.outline_mapSpans (role : Role) (type : TypeRef) :
    (type.mapSpans f).outline role = (type.outline role).mapSpans f :=
  (TypeRef.hereditary_outline f).typeRef type role

theorem Value.hereditary_outline :
    Value.Hereditary
      (fun v => ∀ role, (v.mapSpans f).outline role = (v.outline role).mapSpans f)
      (fun field => (field.mapSpans f).outline = field.outline.mapSpans f) where
  var name role := by
    simp [Value.mapSpans, Value.outline, Node.mapSpans, Variable.mapSpans, map_tokenSlot]
  int t role := by simp [Value.mapSpans, Value.outline, Node.mapSpans]
  float t role := by simp [Value.mapSpans, Value.outline, Node.mapSpans]
  string t role := by simp [Value.mapSpans, Value.outline, Node.mapSpans]
  boolean t value role := by simp [Value.mapSpans, Value.outline, Node.mapSpans]
  null t role := by simp [Value.mapSpans, Value.outline, Node.mapSpans]
  enum t role := by simp [Value.mapSpans, Value.outline, Node.mapSpans]
  list items inner role := by
    rw [Value.mapSpans_list, Value.outline_list, Value.outline_list,
      map_delimited f fun v hv => inner v hv .value]
    simp [Node.mapSpans, Value.mapSpans_list]
  object fields inner role := by
    rw [Value.mapSpans_object, Value.outline_object, Value.outline_object, map_delimited f inner]
    simp [Node.mapSpans, Value.mapSpans_object]
  field name colon value inner := by
    rw [ObjectField.mapSpans_mk, ObjectField.outline_mk, ObjectField.outline_mk, map_tokenSlot,
      map_single f fun v hv => inner v hv .value]
    simp [Node.mapSpans, ObjectField.mapSpans_mk]

theorem Value.outline_mapSpans (role : Role) (v : Value) :
    (v.mapSpans f).outline role = (v.outline role).mapSpans f :=
  (Value.hereditary_outline f).value v role

@[simp] theorem slot_value_mapSpans (value : Required Value) :
    single (Value.outline .value) (mapSlot f (Value.mapSpans f) value) =
      (single (Value.outline .value) value).mapSpans f :=
  map_single f fun v _ => v.outline_mapSpans f .value

@[simp] theorem slot_type_mapSpans (type : Required TypeRef) :
    single (TypeRef.outline .type) (mapSlot f (TypeRef.mapSpans f) type) =
      (single (TypeRef.outline .type) type).mapSpans f :=
  map_single f fun t _ => t.outline_mapSpans f .type

@[simp] theorem slot_name_mapSpans (type : Required NamedType) :
    single (NamedType.outline .plain) (mapSlot f (NamedType.mapSpans f) type) =
      (single (NamedType.outline .plain) type).mapSpans f :=
  map_single f fun t _ => t.outline_mapSpans f .plain

theorem DefaultValue.outline_mapSpans (d : DefaultValue) :
    (d.mapSpans f).outline = d.outline.mapSpans f := by
  simp [DefaultValue.outline, DefaultValue.mapSpans, Node.mapSpans, slot_value_mapSpans]

/-! ## Arguments and directives -/

theorem Argument.outline_mapSpans (a : Argument) :
    (a.mapSpans f).outline = a.outline.mapSpans f := by
  simp [Argument.outline, Argument.mapSpans, Node.mapSpans, slot_value_mapSpans, map_tokenSlot]

theorem Arguments.outline_mapSpans (a : Arguments) :
    Arguments.outline (Arguments.mapSpans f a) = (Arguments.outline a).mapSpans f := by
  rw [Arguments.outline, Arguments.mapSpans, map_delimited f fun a _ => a.outline_mapSpans f]
  simp [Arguments.outline, Node.mapSpans, Arguments.mapSpans]

theorem Directive.outline_mapSpans (d : Directive) :
    (d.mapSpans f).outline = d.outline.mapSpans f := by
  simp [Directive.outline, Directive.mapSpans, Node.mapSpans, map_tokenSlot,
    map_optional f (Arguments.outline_mapSpans f)]

theorem Directives.outline_mapSpans (ds : Directives) :
    Directives.outline (Directives.mapSpans f ds) = (Directives.outline ds).mapSpans f := by
  simp [Directives.outline, Directives.mapSpans, Node.mapSpans, Directive.outline_mapSpans]

@[simp] theorem optional_directives_mapSpans (ds : Option Directives) :
    optional Directives.outline (ds.map (Directives.mapSpans f)) =
      (optional Directives.outline ds).map (Outline.mapSpans f) :=
  map_optional f (Directives.outline_mapSpans f)

@[simp] theorem optional_arguments_mapSpans (a : Option Arguments) :
    optional Arguments.outline (a.map (Arguments.mapSpans f)) =
      (optional Arguments.outline a).map (Outline.mapSpans f) :=
  map_optional f (Arguments.outline_mapSpans f)

@[simp] theorem optional_default_mapSpans (d : Option DefaultValue) :
    optional DefaultValue.outline (d.map (DefaultValue.mapSpans f)) =
      (optional DefaultValue.outline d).map (Outline.mapSpans f) :=
  map_optional f (DefaultValue.outline_mapSpans f)

/-! ## Selections -/

theorem Alias.outline_mapSpans (a : Alias) : (a.mapSpans f).outline = a.outline.mapSpans f := by
  simp [Alias.outline, Alias.mapSpans, Node.mapSpans]

theorem TypeCondition.outline_mapSpans (c : TypeCondition) :
    (c.mapSpans f).outline = c.outline.mapSpans f := by
  simp [TypeCondition.outline, TypeCondition.mapSpans, Node.mapSpans]

theorem FragmentSpread.outline_mapSpans (role : Role) (s : FragmentSpread) :
    (s.mapSpans f).outline role = (s.outline role).mapSpans f := by
  simp [FragmentSpread.outline, FragmentSpread.mapSpans, Node.mapSpans]

theorem Selection.hereditary_outline :
    Selection.Hereditary (fun s => (s.mapSpans f).outline = s.outline.mapSpans f)
      (fun set => SelectionSet.outline (SelectionSet.mapSpans f set) =
        (SelectionSet.outline set).mapSpans f) where
  field field inner := by
    have sets : optional SelectionSet.outline (field.selectionSet.map (SelectionSet.mapSpans f)) =
        (optional SelectionSet.outline field.selectionSet).map (Outline.mapSpans f) := by
      cases h : field.selectionSet with
      | none => rfl
      | some set => simp [Outline.optional, inner set h]
    rw [Selection.mapSpans_field, Selection.outline, Selection.outline, Field.outline_eq,
      Field.outline_eq]
    simp [Field.mapSpans, Node.mapSpans, sets, map_optional f (Alias.outline_mapSpans f)]
  spread s := s.outline_mapSpans f .selection
  inline fragment inner := by
    have sets := map_single f inner
    rw [Selection.mapSpans_inline, Selection.outline, Selection.outline, InlineFragment.outline_eq,
      InlineFragment.outline_eq]
    simp [InlineFragment.mapSpans, Node.mapSpans, sets,
      map_optional f (TypeCondition.outline_mapSpans f)]
  set set inner := by
    rw [SelectionSet.outline_eq, SelectionSet.outline_eq, SelectionSet.mapSpans_eq,
      map_delimited f inner]
    simp [Node.mapSpans, SelectionSet.mapSpans_eq]

theorem SelectionSet.outline_mapSpans (set : SelectionSet) :
    SelectionSet.outline (SelectionSet.mapSpans f set) = (SelectionSet.outline set).mapSpans f :=
  (Selection.hereditary_outline f).selectionSet set

@[simp] theorem slot_selectionSet_mapSpans (set : Required SelectionSet) :
    single SelectionSet.outline (mapSlot f (SelectionSet.mapSpans f) set) =
      (single SelectionSet.outline set).mapSpans f :=
  map_single f fun set _ => SelectionSet.outline_mapSpans f set

/-! ## Operations and fragments -/

theorem OperationType.outline_mapSpans (t : OperationType) :
    (t.mapSpans f).outline = t.outline.mapSpans f := by
  simp [OperationType.outline, OperationType.mapSpans, Node.mapSpans]

theorem VariableDefinition.outline_mapSpans (d : VariableDefinition) :
    (d.mapSpans f).outline = d.outline.mapSpans f := by
  have var : Value.outline .plain (.var (d.var.mapSpans f)) =
      (Value.outline .plain (.var d.var)).mapSpans f := Value.outline_mapSpans f .plain (.var d.var)
  simp [VariableDefinition.outline, VariableDefinition.mapSpans, Node.mapSpans, var]

theorem VariableDefinition.listOutline_mapSpans (d : Delimited VariableDefinition) :
    VariableDefinition.listOutline (d.mapSpans f (VariableDefinition.mapSpans f)) =
      (VariableDefinition.listOutline d).mapSpans f := by
  rw [VariableDefinition.listOutline, map_delimited f fun d _ => d.outline_mapSpans f]
  simp [VariableDefinition.listOutline, Node.mapSpans]

theorem OperationDefinition.outline_mapSpans (role : Role) (d : OperationDefinition) :
    (d.mapSpans f).outline role = (d.outline role).mapSpans f := by
  simp [OperationDefinition.outline, OperationDefinition.mapSpans, Node.mapSpans,
    map_optional f (OperationType.outline_mapSpans f),
    map_optional f (VariableDefinition.listOutline_mapSpans f)]

theorem FragmentDefinition.outline_mapSpans (role : Role) (d : FragmentDefinition) :
    (d.mapSpans f).outline role = (d.outline role).mapSpans f := by
  have condition := map_single f (a := d.condition) fun c _ => TypeCondition.outline_mapSpans f c
  simp [FragmentDefinition.outline, FragmentDefinition.mapSpans, Node.mapSpans, condition]

/-! ## Parts of the type system -/

@[simp] theorem optional_description_mapSpans (t : Option Token) :
    optional descriptionOutline (t.map (Token.mapSpans f)) =
      (optional descriptionOutline t).map (Outline.mapSpans f) :=
  map_optional f fun t => by simp [descriptionOutline, Node.mapSpans]

theorem InputValueDefinition.outline_mapSpans (d : InputValueDefinition) :
    (d.mapSpans f).outline = d.outline.mapSpans f := by
  simp [InputValueDefinition.outline, InputValueDefinition.mapSpans, Node.mapSpans]

@[simp] theorem InputValueDefinition.optional_arguments_mapSpans
    (d : Option (Delimited InputValueDefinition)) :
    optional InputValueDefinition.argumentsOutline
        (d.map (Delimited.mapSpans f (InputValueDefinition.mapSpans f))) =
      (optional InputValueDefinition.argumentsOutline d).map (Outline.mapSpans f) := by
  refine map_optional f fun d => ?_
  rw [argumentsOutline, map_delimited f fun d _ => d.outline_mapSpans f]
  simp [argumentsOutline, Node.mapSpans]

theorem InputValueDefinition.fieldsOutline_mapSpans (d : Delimited InputValueDefinition) :
    InputValueDefinition.fieldsOutline (d.mapSpans f (InputValueDefinition.mapSpans f)) =
      (InputValueDefinition.fieldsOutline d).mapSpans f := by
  rw [fieldsOutline, map_delimited f fun d _ => d.outline_mapSpans f]
  simp [fieldsOutline, Node.mapSpans]

theorem FieldDefinition.outline_mapSpans (d : FieldDefinition) :
    (d.mapSpans f).outline = d.outline.mapSpans f := by
  simp [FieldDefinition.outline, FieldDefinition.mapSpans, Node.mapSpans]

theorem FieldDefinition.listOutline_mapSpans (d : Delimited FieldDefinition) :
    FieldDefinition.listOutline (d.mapSpans f (FieldDefinition.mapSpans f)) =
      (FieldDefinition.listOutline d).mapSpans f := by
  rw [listOutline, map_delimited f fun d _ => d.outline_mapSpans f]
  simp [listOutline, Node.mapSpans]

theorem EnumValueDefinition.outline_mapSpans (d : EnumValueDefinition) :
    (d.mapSpans f).outline = d.outline.mapSpans f := by
  have value : Value.outline .plain (.enum (d.value.mapSpans f)) =
      (Value.outline .plain (.enum d.value)).mapSpans f :=
    Value.outline_mapSpans f .plain (.enum d.value)
  simp [EnumValueDefinition.outline, EnumValueDefinition.mapSpans, Node.mapSpans, value]

theorem EnumValueDefinition.listOutline_mapSpans (d : Delimited EnumValueDefinition) :
    EnumValueDefinition.listOutline (d.mapSpans f (EnumValueDefinition.mapSpans f)) =
      (EnumValueDefinition.listOutline d).mapSpans f := by
  rw [listOutline, map_delimited f fun d _ => d.outline_mapSpans f]
  simp [listOutline, Node.mapSpans]

theorem interfacesOutline_mapSpans (m : MemberList NamedType) :
    interfacesOutline (m.mapSpans f (NamedType.mapSpans f)) = (interfacesOutline m).mapSpans f := by
  rw [interfacesOutline, map_members f (NamedType.outline_mapSpans f .plain)]
  simp [interfacesOutline, Node.mapSpans]

theorem unionMembersOutline_mapSpans (m : MemberList NamedType) :
    unionMembersOutline (m.mapSpans f (NamedType.mapSpans f)) =
      (unionMembersOutline m).mapSpans f := by
  rw [unionMembersOutline, map_members f (NamedType.outline_mapSpans f .plain)]
  simp [unionMembersOutline, Node.mapSpans]

theorem FieldedBody.outlines_mapSpans (body : FieldedBody) :
    (body.mapSpans f).outlines = body.outlines.map (Outline.mapSpans f) := by
  simp [FieldedBody.outlines, FieldedBody.mapSpans, map_optional f (interfacesOutline_mapSpans f),
    map_optional f (FieldDefinition.listOutline_mapSpans f)]

theorem TypeBody.outlines_mapSpans {p : δ → δ} {scalar : δ → List Outline}
    (h : ∀ d, scalar (p d) = (scalar d).map (Outline.mapSpans f)) (body : TypeBody δ) :
    (body.mapSpans f p).outlines scalar = (body.outlines scalar).map (Outline.mapSpans f) := by
  cases body with
  | scalar directives => exact h directives
  | object body => exact body.outlines_mapSpans f
  | interface body => exact body.outlines_mapSpans f
  | union directives members =>
    simp [mapSpans, outlines, map_optional f (unionMembersOutline_mapSpans f)]
  | enum directives values =>
    simp [mapSpans, outlines, map_optional f (EnumValueDefinition.listOutline_mapSpans f)]
  | input directives fields =>
    simp [mapSpans, outlines, map_optional f (InputValueDefinition.fieldsOutline_mapSpans f)]

/-! ## The type system -/

theorem TypeDefinition.outline_mapSpans (role : Role) (d : TypeDefinition) :
    (d.mapSpans f).outline role = (d.outline role).mapSpans f := by
  have body := d.body.outlines_mapSpans f (optional_directives_mapSpans f)
  simp only [TypeDefinition.outline, TypeDefinition.mapSpans, body]
  simp [Node.mapSpans, TypeDefinition.mapSpans]

theorem TypeExtension.outline_mapSpans (role : Role) (d : TypeExtension) :
    (d.mapSpans f).outline role = (d.outline role).mapSpans f := by
  have scalar (d : Required Directives) :
      [single Directives.outline (mapSlot f (Directives.mapSpans f) d)] =
        [single Directives.outline d].map (Outline.mapSpans f) := by
    rw [map_single f fun d _ => Directives.outline_mapSpans f d, List.map_cons, List.map_nil]
  have body : (d.body.mapSpans f (mapSlot f (Directives.mapSpans f))).outlines
      (fun d => [single Directives.outline d]) =
        (d.body.outlines fun d => [single Directives.outline d]).map (Outline.mapSpans f) :=
    d.body.outlines_mapSpans f scalar
  simp only [TypeExtension.outline, TypeExtension.mapSpans, body]
  simp [Node.mapSpans, TypeExtension.mapSpans]

theorem RootOperationType.outline_mapSpans (root : RootOperationType) :
    (root.mapSpans f).outline = root.outline.mapSpans f := by
  simp [RootOperationType.outline, RootOperationType.mapSpans, Node.mapSpans,
    OperationType.outline_mapSpans]

theorem RootOperationTypes.outline_mapSpans (roots : RootOperationTypes) :
    (roots.mapSpans f).outline = roots.outline.mapSpans f := by
  have entries : slot (List.map RootOperationType.outline)
      (mapSlot f (List.map (RootOperationType.mapSpans f)) roots.entries) =
        (slot (List.map RootOperationType.outline) roots.entries).mapSpans f :=
    map_slot f fun entries => by simp [RootOperationType.outline_mapSpans]
  simp [RootOperationTypes.outline, RootOperationTypes.mapSpans, Node.mapSpans, entries]

theorem SchemaDefinition.outline_mapSpans (role : Role) (d : SchemaDefinition) :
    (d.mapSpans f).outline role = (d.outline role).mapSpans f := by
  have roots := map_single f (a := d.roots) fun r _ => RootOperationTypes.outline_mapSpans f r
  simp [SchemaDefinition.outline, SchemaDefinition.mapSpans, Node.mapSpans, roots]

theorem SchemaExtension.outline_mapSpans (role : Role) (d : SchemaExtension) :
    (d.mapSpans f).outline role = (d.outline role).mapSpans f := by
  simp [SchemaExtension.outline, SchemaExtension.mapSpans, Node.mapSpans,
    map_optional f (RootOperationTypes.outline_mapSpans f)]

theorem DirectiveLocation.outline_mapSpans (l : DirectiveLocation) :
    (l.mapSpans f).outline = l.outline.mapSpans f := by
  simp [DirectiveLocation.outline, DirectiveLocation.mapSpans, Node.mapSpans]

theorem DirectiveLocation.listOutline_mapSpans (m : MemberList DirectiveLocation) :
    DirectiveLocation.listOutline (m.mapSpans f (DirectiveLocation.mapSpans f)) =
      (DirectiveLocation.listOutline m).mapSpans f := by
  rw [listOutline, map_members f (DirectiveLocation.outline_mapSpans f)]
  simp [listOutline, Node.mapSpans]

theorem DirectiveDefinition.outline_mapSpans (role : Role) (d : DirectiveDefinition) :
    (d.mapSpans f).outline role = (d.outline role).mapSpans f := by
  have locations := map_single f (a := d.locations)
    fun m _ => DirectiveLocation.listOutline_mapSpans f m
  simp [DirectiveDefinition.outline, DirectiveDefinition.mapSpans, Node.mapSpans, locations]

/-! ## Documents -/

theorem Definition.outline_mapSpans (role : Role) (d : Definition) :
    (d.mapSpans f).outline role = (d.outline role).mapSpans f := by
  cases d with
  | operation d => exact d.outline_mapSpans f role
  | fragment d => exact d.outline_mapSpans f role
  | schema d => exact d.outline_mapSpans f role
  | schemaExtension d => exact d.outline_mapSpans f role
  | type d => exact d.outline_mapSpans f role
  | typeExtension d => exact d.outline_mapSpans f role
  | directive d => exact d.outline_mapSpans f role

theorem Document.outline_mapSpans (document : Document) :
    (document.mapSpans f).outline = document.outline.mapSpans f := by
  simp [Document.outline, Document.mapSpans, Node.mapSpans, Definition.outline_mapSpans]

/-! ## Tokens and nesting -/

theorem Node.kind_mapSpans (n : Node) : (n.mapSpans f).kind = n.kind := by
  cases n with
  | value v =>
    cases v with
    | list items => rw [Node.mapSpans, Value.mapSpans_list]; rfl
    | object fields => rw [Node.mapSpans, Value.mapSpans_object]; rfl
    | _ => rfl
  | type t =>
    cases t with
    | nonNull type bang => rfl
    | nullable type =>
      cases type with
      | named type => rfl
      | list opening item closing =>
        rw [Node.mapSpans, TypeRef.mapSpans, NullableType.mapSpans_list]
        rfl
  | typeDefinition d =>
    obtain ⟨description, keyword, name, body⟩ := d
    cases body <;> rfl
  | typeExtension d =>
    obtain ⟨extend, keyword, name, body⟩ := d
    cases body <;> rfl
  | _ => rfl

namespace Outline

mutual
theorem tokens_mapSpans : (o : Outline) → (o.mapSpans f).tokens = o.tokens.map (Token.mapSpans f)
  | .token t => by simp
  | .missing gap => by simp [mapSpans, tokens]
  | .present content => by simp [mapSpans, tokens, tokensOf_mapSpans content]
  | .node role n parts => by
    rw [mapSpans, tokens_node, tokens_node, tokensOf_mapSpans parts]
theorem tokensOf_mapSpans :
    (os : List Outline) → tokensOf (mapSpansAll f os) = (tokensOf os).map (Token.mapSpans f)
  | [] => by simp [mapSpansAll]
  | o :: rest => by simp [mapSpansAll, tokens_mapSpans o, tokensOf_mapSpans rest]
end

mutual
theorem nesting_mapSpans : (o : Outline) → (o.mapSpans f).nesting = o.nesting
  | .token t => by simp
  | .missing gap => by simp [mapSpans, nesting]
  | .present content => by simp [mapSpans, nesting, nestingOf_mapSpans content]
  | .node role n parts => by
    rw [mapSpans, nesting_node, nesting_node, n.kind_mapSpans, nestingOf_mapSpans parts]
theorem nestingOf_mapSpans :
    (os : List Outline) → nestingOf (mapSpansAll f os) = nestingOf os
  | [] => by simp [mapSpansAll]
  | o :: rest => by simp [mapSpansAll, nestingOf, nesting_mapSpans o, nestingOf_mapSpans rest]
end

end Outline

/-! ## Well-formedness -/

@[simp] theorem Token.isName_mapSpans (t : Token) (word : Text) :
    (t.mapSpans f).isName word = t.isName word := rfl

@[simp] theorem Token.isPunctuator_mapSpans (t : Token) (mark : Text) :
    (t.mapSpans f).isPunctuator mark = t.isPunctuator mark := rfl

@[simp] theorem Token.isNameExcept_mapSpans (reserved : List Text) (t : Token) :
    (t.mapSpans f).isNameExcept reserved = t.isNameExcept reserved := rfl

@[simp] theorem Token.isAnyName_mapSpans (t : Token) : (t.mapSpans f).isAnyName = t.isAnyName := rfl

@[simp] theorem Token.isString_mapSpans (t : Token) : (t.mapSpans f).isString = t.isString := rfl

@[simp] theorem filled_mapSlot (test : β → Bool) (part : α → β) (slot : Required α) :
    filled test (mapSlot f part slot) = filled (fun a => test (part a)) slot := by
  cases slot <;> rfl

@[simp] theorem filled_mapTokenSlot (test : Token → Bool) (slot : Required Token) :
    filled test (mapTokenSlot f slot) = filled (fun t => test (t.mapSpans f)) slot :=
  filled_mapSlot f test _ slot

@[simp] theorem all_mapOption (test : β → Bool) (part : α → β) (a : Option α) :
    (a.map part).all test = a.all fun x => test (part x) := by
  cases a <;> rfl

theorem filled_congr {test test' : α → Bool} {slot : Required α}
    (h : ∀ a ∈ slot.value?, test a = test' a) : filled test slot = filled test' slot := by
  cases slot with
  | present a => exact h a rfl
  | missing gap => rfl

@[simp] theorem Delimited.isWellFormed_mapSpans (opening closing : Text) (item : β → Bool)
    (part : α → β) (items : Delimited α) :
    (items.mapSpans f part).isWellFormed opening closing item =
      items.isWellFormed opening closing fun a => item (part a) := by
  simp [Delimited.isWellFormed, Delimited.mapSpans, Function.comp_def]

theorem Delimited.isWellFormed_congr {opening closing : Text} {item item' : α → Bool}
    {items : Delimited α} (h : ∀ a ∈ items.items, item a = item' a) :
    items.isWellFormed opening closing item = items.isWellFormed opening closing item' := by
  have same : items.items.all item = items.items.all item' := by
    rw [Bool.eq_iff_iff, List.all_eq_true, List.all_eq_true]
    exact forall₂_congr fun a ha => by rw [h a ha]
  rw [Delimited.isWellFormed, Delimited.isWellFormed, same]

@[simp] theorem MemberList.isWellFormed_mapSpans (intro separator : Token → Bool)
    (member : β → Bool) (part : α → β) (members : MemberList α) :
    (members.mapSpans f part).isWellFormed intro separator member =
      members.isWellFormed (fun t => intro (t.mapSpans f)) (fun t => separator (t.mapSpans f))
        fun a => member (part a) := by
  simp [MemberList.isWellFormed, MemberList.mapSpans, Function.comp_def]

@[simp] theorem NamedType.isWellFormed_mapSpans (type : NamedType) :
    (type.mapSpans f).isWellFormed = type.isWellFormed := rfl

theorem TypeRef.hereditary_isWellFormed :
    TypeRef.Hereditary (fun type => (type.mapSpans f).isWellFormed = type.isWellFormed)
      (fun type => (type.mapSpans f).isWellFormed = type.isWellFormed) where
  named type := rfl
  list opening item closing inner := by
    rw [NullableType.mapSpans_list, NullableType.isWellFormed_list, NullableType.isWellFormed_list]
    simp [filled_congr inner]
  nullable type h := h
  nonNull type bang h := by simp [mapSpans, isWellFormed, h]

@[simp] theorem TypeRef.isWellFormed_mapSpans (type : TypeRef) :
    (type.mapSpans f).isWellFormed = type.isWellFormed :=
  (TypeRef.hereditary_isWellFormed f).typeRef type

@[simp] theorem Variable.isWellFormed_mapSpans (v : Variable) :
    (v.mapSpans f).isWellFormed = v.isWellFormed := by
  simp [Variable.isWellFormed, Variable.mapSpans]

theorem Value.hereditary_isWellFormed :
    Value.Hereditary (fun v => (v.mapSpans f).isWellFormed = v.isWellFormed)
      (fun field => (field.mapSpans f).isWellFormed = field.isWellFormed) where
  var name := by simp [Value.mapSpans, Value.isWellFormed]
  int t := rfl
  float t := rfl
  string t := rfl
  boolean t value := rfl
  null t := rfl
  enum t := rfl
  list items inner := by
    rw [Value.mapSpans_list, Value.isWellFormed_list, Value.isWellFormed_list,
      Delimited.isWellFormed_mapSpans, Delimited.isWellFormed_congr inner]
  object fields inner := by
    rw [Value.mapSpans_object, Value.isWellFormed_object, Value.isWellFormed_object,
      Delimited.isWellFormed_mapSpans, Delimited.isWellFormed_congr inner]
  field name colon value inner := by
    rw [ObjectField.mapSpans_mk, ObjectField.isWellFormed_mk, ObjectField.isWellFormed_mk]
    simp [filled_congr inner]

@[simp] theorem Value.isWellFormed_mapSpans (v : Value) :
    (v.mapSpans f).isWellFormed = v.isWellFormed := (Value.hereditary_isWellFormed f).value v

@[simp] theorem DefaultValue.isWellFormed_mapSpans (d : DefaultValue) :
    (d.mapSpans f).isWellFormed = d.isWellFormed := by
  simp [DefaultValue.isWellFormed, DefaultValue.mapSpans]

@[simp] theorem Argument.isWellFormed_mapSpans (a : Argument) :
    (a.mapSpans f).isWellFormed = a.isWellFormed := by
  simp [Argument.isWellFormed, Argument.mapSpans]

@[simp] theorem Arguments.isWellFormed_mapSpans (a : Arguments) :
    Arguments.isWellFormed (Arguments.mapSpans f a) = Arguments.isWellFormed a := by
  simp [Arguments.isWellFormed, Arguments.mapSpans]

@[simp] theorem Directive.isWellFormed_mapSpans (d : Directive) :
    (d.mapSpans f).isWellFormed = d.isWellFormed := by
  simp [Directive.isWellFormed, Directive.mapSpans]

@[simp] theorem Directives.isWellFormed_mapSpans (ds : Directives) :
    Directives.isWellFormed (Directives.mapSpans f ds) = Directives.isWellFormed ds := by
  simp [Directives.isWellFormed, Directives.mapSpans, Function.comp_def]

@[simp] theorem Alias.isWellFormed_mapSpans (a : Alias) :
    (a.mapSpans f).isWellFormed = a.isWellFormed := rfl

@[simp] theorem TypeCondition.isWellFormed_mapSpans (c : TypeCondition) :
    (c.mapSpans f).isWellFormed = c.isWellFormed := by
  simp [TypeCondition.isWellFormed, TypeCondition.mapSpans]

@[simp] theorem FragmentSpread.isWellFormed_mapSpans (s : FragmentSpread) :
    (s.mapSpans f).isWellFormed = s.isWellFormed := by
  simp [FragmentSpread.isWellFormed, FragmentSpread.mapSpans]

theorem Selection.hereditary_isWellFormed :
    Selection.Hereditary (fun s => (s.mapSpans f).isWellFormed = s.isWellFormed)
      (fun set => SelectionSet.isWellFormed (SelectionSet.mapSpans f set) =
        SelectionSet.isWellFormed set) where
  field field inner := by
    have sets : field.selectionSet.all (fun set =>
        SelectionSet.isWellFormed (SelectionSet.mapSpans f set)) =
          field.selectionSet.all SelectionSet.isWellFormed := by
      cases h : field.selectionSet with
      | none => rfl
      | some set => exact inner set h
    rw [Selection.mapSpans_field, Selection.isWellFormed_field, Selection.isWellFormed_field]
    simp [Field.mapSpans, sets]
  spread s := s.isWellFormed_mapSpans f
  inline fragment inner := by
    rw [Selection.mapSpans_inline, Selection.isWellFormed_inline, Selection.isWellFormed_inline]
    simp [InlineFragment.mapSpans, filled_congr inner]
  set set inner := by
    rw [SelectionSet.mapSpans_eq, SelectionSet.isWellFormed_eq, SelectionSet.isWellFormed_eq,
      Delimited.isWellFormed_mapSpans, Delimited.isWellFormed_congr inner]

@[simp] theorem SelectionSet.isWellFormed_mapSpans (set : SelectionSet) :
    SelectionSet.isWellFormed (SelectionSet.mapSpans f set) = SelectionSet.isWellFormed set :=
  (Selection.hereditary_isWellFormed f).selectionSet set

@[simp] theorem OperationType.isWellFormed_mapSpans (t : OperationType) :
    (t.mapSpans f).isWellFormed = t.isWellFormed := rfl

@[simp] theorem VariableDefinition.isWellFormed_mapSpans (d : VariableDefinition) :
    (d.mapSpans f).isWellFormed = d.isWellFormed := by
  simp [VariableDefinition.isWellFormed, VariableDefinition.mapSpans]

@[simp] theorem VariableDefinition.listIsWellFormed_mapSpans (items : Delimited VariableDefinition) :
    VariableDefinition.listIsWellFormed (items.mapSpans f (VariableDefinition.mapSpans f)) =
      VariableDefinition.listIsWellFormed items := by
  simp [VariableDefinition.listIsWellFormed]

@[simp] theorem OperationDefinition.isWellFormed_mapSpans (d : OperationDefinition) :
    (d.mapSpans f).isWellFormed = d.isWellFormed := by
  obtain ⟨type, name, definitions, directives, set⟩ := d
  cases type <;> simp [OperationDefinition.isWellFormed, OperationDefinition.mapSpans]

@[simp] theorem FragmentDefinition.isWellFormed_mapSpans (d : FragmentDefinition) :
    (d.mapSpans f).isWellFormed = d.isWellFormed := by
  simp [FragmentDefinition.isWellFormed, FragmentDefinition.mapSpans]

@[simp] theorem InputValueDefinition.isWellFormed_mapSpans (d : InputValueDefinition) :
    (d.mapSpans f).isWellFormed = d.isWellFormed := by
  simp [InputValueDefinition.isWellFormed, InputValueDefinition.mapSpans]

@[simp] theorem InputValueDefinition.argumentsAreWellFormed_mapSpans
    (items : Delimited InputValueDefinition) :
    InputValueDefinition.argumentsAreWellFormed (items.mapSpans f (InputValueDefinition.mapSpans f)) =
      InputValueDefinition.argumentsAreWellFormed items := by
  simp [InputValueDefinition.argumentsAreWellFormed]

@[simp] theorem InputValueDefinition.fieldsAreWellFormed_mapSpans
    (items : Delimited InputValueDefinition) :
    InputValueDefinition.fieldsAreWellFormed (items.mapSpans f (InputValueDefinition.mapSpans f)) =
      InputValueDefinition.fieldsAreWellFormed items := by
  simp [InputValueDefinition.fieldsAreWellFormed]

@[simp] theorem FieldDefinition.isWellFormed_mapSpans (d : FieldDefinition) :
    (d.mapSpans f).isWellFormed = d.isWellFormed := by
  simp [FieldDefinition.isWellFormed, FieldDefinition.mapSpans]

@[simp] theorem FieldDefinition.listIsWellFormed_mapSpans (items : Delimited FieldDefinition) :
    FieldDefinition.listIsWellFormed (items.mapSpans f (FieldDefinition.mapSpans f)) =
      FieldDefinition.listIsWellFormed items := by
  simp [FieldDefinition.listIsWellFormed]

@[simp] theorem EnumValueDefinition.isWellFormed_mapSpans (d : EnumValueDefinition) :
    (d.mapSpans f).isWellFormed = d.isWellFormed := by
  simp [EnumValueDefinition.isWellFormed, EnumValueDefinition.mapSpans]

@[simp] theorem EnumValueDefinition.listIsWellFormed_mapSpans (items : Delimited EnumValueDefinition) :
    EnumValueDefinition.listIsWellFormed (items.mapSpans f (EnumValueDefinition.mapSpans f)) =
      EnumValueDefinition.listIsWellFormed items := by
  simp [EnumValueDefinition.listIsWellFormed]

@[simp] theorem interfacesAreWellFormed_mapSpans (members : MemberList NamedType) :
    interfacesAreWellFormed (members.mapSpans f (NamedType.mapSpans f)) =
      interfacesAreWellFormed members := by
  simp [interfacesAreWellFormed]

@[simp] theorem unionMembersAreWellFormed_mapSpans (members : MemberList NamedType) :
    unionMembersAreWellFormed (members.mapSpans f (NamedType.mapSpans f)) =
      unionMembersAreWellFormed members := by
  simp [unionMembersAreWellFormed]

@[simp] theorem FieldedBody.isWellFormed_mapSpans (body : FieldedBody) :
    (body.mapSpans f).isWellFormed = body.isWellFormed := by
  simp [FieldedBody.isWellFormed, FieldedBody.mapSpans]

theorem TypeBody.isWellFormed_mapSpans {p : δ → δ} {scalar : δ → Bool}
    (h : ∀ d, scalar (p d) = scalar d) (body : TypeBody δ) :
    (body.mapSpans f p).isWellFormed scalar = body.isWellFormed scalar := by
  cases body with
  | scalar directives => exact h directives
  | object body => exact body.isWellFormed_mapSpans f
  | interface body => exact body.isWellFormed_mapSpans f
  | union directives members =>
    simp [mapSpans, isWellFormed]
  | enum directives values =>
    simp [mapSpans, isWellFormed]
  | input directives fields =>
    simp [mapSpans, isWellFormed]

@[simp] theorem TypeBody.kind_mapSpans (p : δ → δ) (body : TypeBody δ) :
    (body.mapSpans f p).kind = body.kind := by
  cases body <;> rfl

@[simp] theorem TypeBody.isOpen_mapSpans (p : δ → δ) (body : TypeBody δ) :
    (body.mapSpans f p).isOpen = body.isOpen := by
  cases body <;> simp [mapSpans, isOpen, FieldedBody.mapSpans]

@[simp] theorem TypeDefinition.isWellFormed_mapSpans (d : TypeDefinition) :
    (d.mapSpans f).isWellFormed = d.isWellFormed := by
  have body : (d.body.mapSpans f (Option.map (Directives.mapSpans f))).isWellFormed
      (·.all Directives.isWellFormed) = d.body.isWellFormed (·.all Directives.isWellFormed) :=
    d.body.isWellFormed_mapSpans f fun ds => by simp
  simp [TypeDefinition.isWellFormed, TypeDefinition.mapSpans, body]

@[simp] theorem TypeExtension.isWellFormed_mapSpans (d : TypeExtension) :
    (d.mapSpans f).isWellFormed = d.isWellFormed := by
  have body : (d.body.mapSpans f (mapSlot f (Directives.mapSpans f))).isWellFormed
      (filled Directives.isWellFormed) = d.body.isWellFormed (filled Directives.isWellFormed) :=
    d.body.isWellFormed_mapSpans f fun ds => by simp
  simp [TypeExtension.isWellFormed, TypeExtension.mapSpans, body]

@[simp] theorem RootOperationType.isWellFormed_mapSpans (root : RootOperationType) :
    (root.mapSpans f).isWellFormed = root.isWellFormed := by
  simp [RootOperationType.isWellFormed, RootOperationType.mapSpans]

@[simp] theorem RootOperationTypes.isWellFormed_mapSpans (roots : RootOperationTypes) :
    (roots.mapSpans f).isWellFormed = roots.isWellFormed := by
  simp [RootOperationTypes.isWellFormed, RootOperationTypes.mapSpans, Function.comp_def]

@[simp] theorem SchemaDefinition.isWellFormed_mapSpans (d : SchemaDefinition) :
    (d.mapSpans f).isWellFormed = d.isWellFormed := by
  simp [SchemaDefinition.isWellFormed, SchemaDefinition.mapSpans]

@[simp] theorem SchemaExtension.isWellFormed_mapSpans (d : SchemaExtension) :
    (d.mapSpans f).isWellFormed = d.isWellFormed := by
  simp [SchemaExtension.isWellFormed, SchemaExtension.mapSpans]

@[simp] theorem DirectiveLocation.isWellFormed_mapSpans (l : DirectiveLocation) :
    (l.mapSpans f).isWellFormed = l.isWellFormed := rfl

@[simp] theorem DirectiveLocation.listIsWellFormed_mapSpans (members : MemberList DirectiveLocation) :
    DirectiveLocation.listIsWellFormed (members.mapSpans f (DirectiveLocation.mapSpans f)) =
      DirectiveLocation.listIsWellFormed members := by
  simp [DirectiveLocation.listIsWellFormed]

@[simp] theorem DirectiveDefinition.isWellFormed_mapSpans (d : DirectiveDefinition) :
    (d.mapSpans f).isWellFormed = d.isWellFormed := by
  simp [DirectiveDefinition.isWellFormed, DirectiveDefinition.mapSpans]

@[simp] theorem Definition.isWellFormed_mapSpans (d : Definition) :
    (d.mapSpans f).isWellFormed = d.isWellFormed := by
  cases d <;> simp [Definition.isWellFormed, Definition.mapSpans]

@[simp] theorem Definition.isOpen_mapSpans (d : Definition) : (d.mapSpans f).isOpen = d.isOpen := by
  cases d <;> simp [Definition.isOpen, Definition.mapSpans, SchemaExtension.mapSpans,
    TypeDefinition.mapSpans, TypeExtension.mapSpans]

@[simp] theorem Definition.isShorthand_mapSpans (d : Definition) :
    (d.mapSpans f).isShorthand = d.isShorthand := by
  cases d <;> simp [Definition.isShorthand, Definition.mapSpans, OperationDefinition.mapSpans]

theorem Definition.areApart_mapSpans (ds : List Definition) :
    areApart (ds.map (mapSpans f)) = areApart ds := by
  induction ds with
  | nil => rfl
  | cons d ds ih =>
    rw [List.map_cons, areApart, ih, areApart, isOpen_mapSpans, List.head?_map]
    cases ds <;> simp

/-- Well-formedness does not depend on places. -/
theorem Document.isWellFormed_mapSpans (document : Document) :
    (document.mapSpans f).isWellFormed = document.isWellFormed := by
  rw [isWellFormed, outline_mapSpans, nesting_mapSpans]
  simp [isWellFormed, mapSpans, Definition.areApart_mapSpans, Function.comp_def]

end GraphQL
