import GraphQL.Proofs.Document.Relocated
import GraphQL.Proofs.Layout.Value

/-! # Layouts do not depend on places

What a construct is laid out as is the same wherever it was read: `Document.layout_mapSpans`. -/

namespace GraphQL

set_option autoImplicit false

open Layout

variable {α β δ : Type} (f : Span → Span) (indent : Text)

/-! ## Shapes -/

@[simp] theorem Token.text_mapSpans (t : Token) : (t.mapSpans f).text = t.text := rfl

@[simp] theorem Layout.optional_map (layout : β → Text) (part : α → β) (a : Option α) :
    optional layout (a.map part) = optional (fun x => layout (part x)) a := by
  cases a <;> rfl

@[simp] theorem Layout.slot_mapSlot (layout : β → Text) (part : α → β) (a : Required α) :
    slot layout (mapSlot f part a) = slot (fun x => layout (part x)) a := by
  cases a <;> rfl

@[simp] theorem Layout.tokenSlot_mapTokenSlot (t : Required Token) :
    tokenSlot (mapTokenSlot f t) = tokenSlot t := by
  cases t <;> rfl

@[simp] theorem Layout.described_map (description : Option Token) (rest : Text) :
    described (description.map (Token.mapSpans f)) indent rest = described description indent rest := by
  cases description <;> rfl

theorem Layout.slot_congr {layout layout' : α → Text} {a : Required α}
    (h : ∀ x ∈ a.value?, layout x = layout' x) : slot layout a = slot layout' a := by
  cases a with
  | present x => exact h x rfl
  | missing gap => rfl

@[simp] theorem Delimited.items_mapSpans (part : α → β) (items : Delimited α) :
    (items.mapSpans f part).items = items.items.map part := rfl

@[simp] theorem MemberList.layout_mapSpans (intro separator : Text) (layout : β → Text)
    (part : α → β) (members : MemberList α) :
    (members.mapSpans f part).layout intro separator layout =
      members.layout intro separator fun a => layout (part a) := by
  have slots (slots : List (Required α)) :
      (slots.map (mapSlot f part)).filterMap Recovery.Slot.value? =
        (slots.filterMap Recovery.Slot.value?).map part := by
    rw [List.filterMap_map, List.map_filterMap]
    exact congrArg (List.filterMap · slots) (funext (Recovery.Slot.value?_mapSlot f part))
  have present : (members.mapSpans f part).present = members.present.map part := by
    have := slots (members.first :: members.rest.map Prod.snd)
    rw [List.map_cons, List.map_map] at this
    rw [MemberList.present, mapSpans, List.map_map]
    exact this
  rw [MemberList.layout, present, List.map_map, MemberList.layout]
  rfl

/-! ## Types and values -/

@[simp] theorem NamedType.layout_mapSpans (type : NamedType) :
    (type.mapSpans f).layout = type.layout := rfl

theorem NullableType.layout_list (opening : Token) (item : Required TypeRef)
    (closing : Required Token) :
    (NullableType.list opening item closing).layout = "[" ++ slot TypeRef.layout item ++ "]" := by
  cases item <;> rfl

theorem TypeRef.hereditary_layout :
    TypeRef.Hereditary (fun type => (type.mapSpans f).layout = type.layout)
      (fun type => (type.mapSpans f).layout = type.layout) where
  named type := rfl
  list opening item closing inner := by
    rw [NullableType.mapSpans_list, NullableType.layout_list, NullableType.layout_list, slot_mapSlot,
      slot_congr inner]
  nullable type h := h
  nonNull type bang h := by rw [mapSpans, layout, h, layout]

@[simp] theorem TypeRef.layout_mapSpans (type : TypeRef) :
    (type.mapSpans f).layout = type.layout := (TypeRef.hereditary_layout f).typeRef type

@[simp] theorem Variable.layout_mapSpans (v : Variable) : (v.mapSpans f).layout = v.layout := by
  simp [Variable.layout, Variable.mapSpans]

theorem Value.layout_list (items : Delimited Value) :
    (Value.list items).layout = "[" ++ listed (items.items.map Value.layout) ++ "]" := by
  obtain ⟨opening, items, closing⟩ := items
  rw [Value.layout, Value.layouts_eq]

theorem Value.layout_object (fields : Delimited ObjectField) :
    (Value.object fields).layout =
      "\x7b" ++ listed (fields.items.map ObjectField.layout) ++ "\x7d" := by
  obtain ⟨opening, fields, closing⟩ := fields
  rw [Value.layout, ObjectField.layouts_eq]

theorem ObjectField.layout_mk (name : Token) (colon : Required Token) (value : Required Value) :
    (ObjectField.mk name colon value).layout = name.text ++ ": " ++ slot Value.layout value := by
  cases value with
  | present value => rfl
  | missing gap => rw [ObjectField.layout]; exact (List.append_nil _).symm

theorem Value.hereditary_layout :
    Value.Hereditary (fun v => (v.mapSpans f).layout = v.layout)
      (fun field => (field.mapSpans f).layout = field.layout) where
  var name := name.layout_mapSpans f
  int t := rfl
  float t := rfl
  string t := rfl
  boolean t value := rfl
  null t := rfl
  enum t := rfl
  list items inner := by
    rw [Value.mapSpans_list, Value.layout_list, Value.layout_list, Delimited.items_mapSpans,
      List.map_map, ← List.map_congr_left inner]
    rfl
  object fields inner := by
    rw [Value.mapSpans_object, Value.layout_object, Value.layout_object, Delimited.items_mapSpans,
      List.map_map, ← List.map_congr_left inner]
    rfl
  field name colon value inner := by
    rw [ObjectField.mapSpans_mk, ObjectField.layout_mk, ObjectField.layout_mk, slot_mapSlot,
      slot_congr inner, Token.text_mapSpans]

@[simp] theorem Value.layout_mapSpans (v : Value) : (v.mapSpans f).layout = v.layout :=
  (Value.hereditary_layout f).value v

@[simp] theorem DefaultValue.layout_mapSpans (d : DefaultValue) :
    (d.mapSpans f).layout = d.layout := by
  simp [DefaultValue.layout, DefaultValue.mapSpans]

/-! ## Arguments and directives -/

@[simp] theorem Argument.layout_mapSpans (a : Argument) : (a.mapSpans f).layout = a.layout := by
  simp [Argument.layout, Argument.mapSpans]

@[simp] theorem Arguments.layout_mapSpans (a : Arguments) :
    Arguments.layout (Arguments.mapSpans f a) = Arguments.layout a := by
  simp [Arguments.layout, Arguments.mapSpans, Function.comp_def]

@[simp] theorem Directive.layout_mapSpans (d : Directive) : (d.mapSpans f).layout = d.layout := by
  simp [Directive.layout, Directive.mapSpans]

@[simp] theorem Directives.layout_mapSpans (ds : Directives) :
    Directives.layout (Directives.mapSpans f ds) = Directives.layout ds := by
  simp [Directives.layout, Directives.mapSpans, Function.comp_def]

@[simp] theorem Layout.directives_map (ds : Option Directives) :
    Layout.directives (ds.map (Directives.mapSpans f)) = Layout.directives ds := by
  simp [Layout.directives]

/-! ## Selections -/

@[simp] theorem Alias.layout_mapSpans (a : Alias) : (a.mapSpans f).layout = a.layout := rfl

@[simp] theorem TypeCondition.layout_mapSpans (c : TypeCondition) :
    (c.mapSpans f).layout = c.layout := by
  simp [TypeCondition.layout, TypeCondition.mapSpans]

@[simp] theorem FragmentSpread.layout_mapSpans (s : FragmentSpread) :
    (s.mapSpans f).layout = s.layout := by
  simp [FragmentSpread.layout, FragmentSpread.mapSpans]

theorem Selection.hereditary_layout :
    Selection.Hereditary (fun s => ∀ indent, (s.mapSpans f).layout indent = s.layout indent)
      (fun set => ∀ indent, SelectionSet.layout indent (SelectionSet.mapSpans f set) =
        SelectionSet.layout indent set) where
  field field inner indent := by
    have sets : optional (fun set => SelectionSet.layout indent (SelectionSet.mapSpans f set))
        field.selectionSet = optional (SelectionSet.layout indent) field.selectionSet := by
      cases h : field.selectionSet with
      | none => rfl
      | some set => exact inner set h indent
    rw [Selection.mapSpans_field, Selection.layout, Selection.layout, Field.layout_eq,
      Field.layout_eq]
    simp [Field.mapSpans, sets]
  spread s indent := s.layout_mapSpans f
  inline fragment inner indent := by
    rw [Selection.mapSpans_inline, Selection.layout, Selection.layout, InlineFragment.layout_eq,
      InlineFragment.layout_eq]
    simp [InlineFragment.mapSpans, slot_congr fun set here => inner set here indent]
  set set inner indent := by
    rw [SelectionSet.mapSpans_eq, SelectionSet.layout_eq, SelectionSet.layout_eq,
      Delimited.items_mapSpans, List.map_map, ← List.map_congr_left fun s hs => inner s hs _]
    rfl

@[simp] theorem SelectionSet.layout_mapSpans (set : SelectionSet) :
    SelectionSet.layout indent (SelectionSet.mapSpans f set) = SelectionSet.layout indent set :=
  (Selection.hereditary_layout f).selectionSet set indent

/-! ## Operations and fragments -/

@[simp] theorem VariableDefinition.layout_mapSpans (d : VariableDefinition) :
    (d.mapSpans f).layout = d.layout := by
  simp [VariableDefinition.layout, VariableDefinition.mapSpans]

@[simp] theorem VariableDefinition.listLayout_mapSpans (d : Delimited VariableDefinition) :
    VariableDefinition.listLayout (d.mapSpans f (VariableDefinition.mapSpans f)) =
      VariableDefinition.listLayout d := by
  simp [VariableDefinition.listLayout, Function.comp_def]

@[simp] theorem OperationDefinition.layout_mapSpans (d : OperationDefinition) :
    (d.mapSpans f).layout indent = d.layout indent := by
  obtain ⟨type, name, definitions, directives, set⟩ := d
  cases type <;> simp [OperationDefinition.layout, OperationDefinition.mapSpans,
    OperationType.mapSpans]

@[simp] theorem FragmentDefinition.layout_mapSpans (d : FragmentDefinition) :
    (d.mapSpans f).layout indent = d.layout indent := by
  simp [FragmentDefinition.layout, FragmentDefinition.mapSpans]

/-! ## Parts of the type system -/

@[simp] theorem InputValueDefinition.layout_mapSpans (d : InputValueDefinition) :
    (d.mapSpans f).layout indent = d.layout indent := by
  simp [InputValueDefinition.layout, InputValueDefinition.mapSpans]

@[simp] theorem InputValueDefinition.argumentsLayout_mapSpans (d : Delimited InputValueDefinition) :
    argumentsLayout indent (d.mapSpans f (mapSpans f)) = argumentsLayout indent d := by
  have described (d : InputValueDefinition) :
      (d.mapSpans f).description.isSome = d.description.isSome := by
    simp [InputValueDefinition.mapSpans]
  simp [argumentsLayout, Function.comp_def, described]

@[simp] theorem InputValueDefinition.fieldsLayout_mapSpans (d : Delimited InputValueDefinition) :
    fieldsLayout indent (d.mapSpans f (mapSpans f)) = fieldsLayout indent d := by
  simp [fieldsLayout, Function.comp_def]

@[simp] theorem FieldDefinition.layout_mapSpans (d : FieldDefinition) :
    (d.mapSpans f).layout indent = d.layout indent := by
  simp [FieldDefinition.layout, FieldDefinition.mapSpans]

@[simp] theorem FieldDefinition.listLayout_mapSpans (d : Delimited FieldDefinition) :
    listLayout indent (d.mapSpans f (mapSpans f)) = listLayout indent d := by
  simp [listLayout, Function.comp_def]

@[simp] theorem EnumValueDefinition.layout_mapSpans (d : EnumValueDefinition) :
    (d.mapSpans f).layout indent = d.layout indent := by
  simp [EnumValueDefinition.layout, EnumValueDefinition.mapSpans]

@[simp] theorem EnumValueDefinition.listLayout_mapSpans (d : Delimited EnumValueDefinition) :
    listLayout indent (d.mapSpans f (mapSpans f)) = listLayout indent d := by
  simp [listLayout, Function.comp_def]

@[simp] theorem interfacesLayout_mapSpans (interfaces : MemberList NamedType) :
    interfacesLayout (interfaces.mapSpans f (NamedType.mapSpans f)) = interfacesLayout interfaces := by
  simp [interfacesLayout]

@[simp] theorem unionMembersLayout_mapSpans (members : MemberList NamedType) :
    unionMembersLayout (members.mapSpans f (NamedType.mapSpans f)) = unionMembersLayout members := by
  simp [unionMembersLayout]

theorem FieldedBody.layouts_mapSpans (body : FieldedBody) :
    (body.mapSpans f).layouts indent = body.layouts indent := by
  simp [FieldedBody.layouts, FieldedBody.mapSpans]

theorem TypeBody.layouts_mapSpans {p : δ → δ} {scalar : δ → Text}
    (h : ∀ d, scalar (p d) = scalar d) (body : TypeBody δ) :
    (body.mapSpans f p).layouts scalar indent = body.layouts scalar indent := by
  cases body with
  | scalar directives => simp [mapSpans, layouts, h]
  | object body => exact body.layouts_mapSpans f indent
  | interface body => exact body.layouts_mapSpans f indent
  | union directives members => simp [mapSpans, layouts]
  | enum directives values => simp [mapSpans, layouts]
  | input directives fields => simp [mapSpans, layouts]

/-! ## The type system -/

@[simp] theorem TypeDefinition.layout_mapSpans (d : TypeDefinition) :
    (d.mapSpans f).layout indent = d.layout indent := by
  have body := d.body.layouts_mapSpans f indent (directives_map f)
  simp [TypeDefinition.layout, TypeDefinition.mapSpans, body]

@[simp] theorem TypeExtension.layout_mapSpans (d : TypeExtension) :
    (d.mapSpans f).layout indent = d.layout indent := by
  have scalar (ds : Required Directives) :
      slot Directives.layout (mapSlot f (Directives.mapSpans f) ds) = slot Directives.layout ds := by
    simp
  have body := d.body.layouts_mapSpans f indent scalar
  simp [TypeExtension.layout, TypeExtension.mapSpans, body]

@[simp] theorem RootOperationType.layout_mapSpans (root : RootOperationType) :
    (root.mapSpans f).layout = root.layout := by
  simp [RootOperationType.layout, RootOperationType.mapSpans, OperationType.mapSpans]

@[simp] theorem RootOperationTypes.layout_mapSpans (roots : RootOperationTypes) :
    (roots.mapSpans f).layout indent = roots.layout indent := by
  obtain ⟨opening, entries, closing⟩ := roots
  cases entries <;> simp [RootOperationTypes.layout, RootOperationTypes.mapSpans, mapSlot,
    Recovery.Slot.value?, Function.comp_def]

@[simp] theorem SchemaDefinition.layout_mapSpans (d : SchemaDefinition) :
    (d.mapSpans f).layout indent = d.layout indent := by
  simp [SchemaDefinition.layout, SchemaDefinition.mapSpans]

@[simp] theorem SchemaExtension.layout_mapSpans (d : SchemaExtension) :
    (d.mapSpans f).layout indent = d.layout indent := by
  simp [SchemaExtension.layout, SchemaExtension.mapSpans]

@[simp] theorem DirectiveLocation.listLayout_mapSpans (m : MemberList DirectiveLocation) :
    listLayout (m.mapSpans f (mapSpans f)) = listLayout m := by
  simp [listLayout, DirectiveLocation.mapSpans]

@[simp] theorem DirectiveDefinition.layout_mapSpans (d : DirectiveDefinition) :
    (d.mapSpans f).layout indent = d.layout indent := by
  simp [DirectiveDefinition.layout, DirectiveDefinition.mapSpans]

/-! ## Documents -/

@[simp] theorem Definition.layout_mapSpans (d : Definition) :
    (d.mapSpans f).layout indent = d.layout indent := by
  cases d <;> simp [Definition.layout, Definition.mapSpans]

theorem Document.layout_mapSpans (document : Document) :
    (document.mapSpans f).layout = document.layout := by
  simp [Document.layout, Document.mapSpans, Function.comp_def]

end GraphQL
