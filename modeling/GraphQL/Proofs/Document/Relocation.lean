import GraphQL.Proofs.Document.Induction
import GraphQL.Document.Outline

/-! # Documents at other places

`X.mapSpans f` is the construct with every span in it replaced by what `f` gives for it: those of its
tokens, of its gaps and of the delimiters that gaps belong to. Two constructs are the same up to
spans if they agree once all spans are replaced by one. -/

namespace GraphQL

set_option autoImplicit false

open Recovery (Gap)

variable {α β δ : Type}

/-! ## Shapes -/

def Token.mapSpans (f : Span → Span) (t : Token) : Token := { t with span := f t.span }

def mapGap (f : Span → Span) (gap : Gap Expectation) : Gap Expectation :=
  ⟨f gap.span, ⟨gap.expected.code, gap.expected.opening.map f⟩⟩

/-- A required part, given how the part itself is relocated. -/
def mapSlot (f : Span → Span) (part : α → β) : Required α → Required β
  | .present a => .present (part a)
  | .missing gap => .missing (mapGap f gap)

theorem Recovery.Slot.value?_mapSlot (f : Span → Span) (part : α → β) (s : Required α) :
    (mapSlot f part s).value? = s.value?.map part := by
  cases s <;> rfl

def mapTokenSlot (f : Span → Span) : Required Token → Required Token := mapSlot f (Token.mapSpans f)

def Delimited.mapSpans (f : Span → Span) (item : α → β) (items : Delimited α) : Delimited β :=
  ⟨items.opening.mapSpans f, items.items.map item, mapTokenSlot f items.closing⟩

def MemberList.mapSpans (f : Span → Span) (member : α → β) (members : MemberList α) : MemberList β :=
  ⟨members.intro.mapSpans f, members.leading.map (Token.mapSpans f), mapSlot f member members.first,
    members.rest.map fun (separator, next) => (separator.mapSpans f, mapSlot f member next)⟩

/-! ## Types and values -/

def NamedType.mapSpans (f : Span → Span) (type : NamedType) : NamedType := ⟨type.name.mapSpans f⟩

mutual
def NullableType.mapSpans (f : Span → Span) : NullableType → NullableType
  | .named type => .named (type.mapSpans f)
  | .list opening (.present item) closing =>
    .list (opening.mapSpans f) (.present (item.mapSpans f)) (mapTokenSlot f closing)
  | .list opening (.missing gap) closing =>
    .list (opening.mapSpans f) (.missing (mapGap f gap)) (mapTokenSlot f closing)
def TypeRef.mapSpans (f : Span → Span) : TypeRef → TypeRef
  | .nullable type => .nullable (type.mapSpans f)
  | .nonNull type bang => .nonNull (type.mapSpans f) (bang.mapSpans f)
end

def Variable.mapSpans (f : Span → Span) (v : Variable) : Variable :=
  ⟨v.dollar.mapSpans f, mapTokenSlot f v.name⟩

mutual
def Value.mapSpans (f : Span → Span) : Value → Value
  | .var name => .var (name.mapSpans f)
  | .int t => .int (t.mapSpans f)
  | .float t => .float (t.mapSpans f)
  | .string t => .string (t.mapSpans f)
  | .boolean t value => .boolean (t.mapSpans f) value
  | .null t => .null (t.mapSpans f)
  | .enum t => .enum (t.mapSpans f)
  | .list ⟨opening, items, closing⟩ =>
    .list ⟨opening.mapSpans f, Value.mapSpansAll f items, mapTokenSlot f closing⟩
  | .object ⟨opening, fields, closing⟩ =>
    .object ⟨opening.mapSpans f, ObjectField.mapSpansAll f fields, mapTokenSlot f closing⟩
def Value.mapSpansAll (f : Span → Span) : List Value → List Value
  | [] => []
  | v :: rest => v.mapSpans f :: Value.mapSpansAll f rest
def ObjectField.mapSpans (f : Span → Span) : ObjectField → ObjectField
  | .mk name colon (.present value) =>
    .mk (name.mapSpans f) (mapTokenSlot f colon) (.present (value.mapSpans f))
  | .mk name colon (.missing gap) =>
    .mk (name.mapSpans f) (mapTokenSlot f colon) (.missing (mapGap f gap))
def ObjectField.mapSpansAll (f : Span → Span) : List ObjectField → List ObjectField
  | [] => []
  | field :: rest => field.mapSpans f :: ObjectField.mapSpansAll f rest
end

def DefaultValue.mapSpans (f : Span → Span) (d : DefaultValue) : DefaultValue :=
  ⟨d.eq.mapSpans f, mapSlot f (Value.mapSpans f) d.value⟩

/-! ## Arguments and directives -/

def Argument.mapSpans (f : Span → Span) (a : Argument) : Argument :=
  ⟨a.name.mapSpans f, mapTokenSlot f a.colon, mapSlot f (Value.mapSpans f) a.value⟩

def Arguments.mapSpans (f : Span → Span) (a : Arguments) : Arguments :=
  Delimited.mapSpans f (Argument.mapSpans f) a

def Directive.mapSpans (f : Span → Span) (d : Directive) : Directive :=
  ⟨d.sign.mapSpans f, mapTokenSlot f d.name, d.arguments.map (Arguments.mapSpans f)⟩

def Directives.mapSpans (f : Span → Span) (ds : Directives) : Directives :=
  ds.map (Directive.mapSpans f)

/-! ## Selections -/

def Alias.mapSpans (f : Span → Span) (a : Alias) : Alias := ⟨a.name.mapSpans f, a.colon.mapSpans f⟩

def TypeCondition.mapSpans (f : Span → Span) (c : TypeCondition) : TypeCondition :=
  ⟨c.keyword.mapSpans f, mapSlot f (NamedType.mapSpans f) c.type⟩

def FragmentSpread.mapSpans (f : Span → Span) (s : FragmentSpread) : FragmentSpread :=
  ⟨s.dots.mapSpans f, s.name.mapSpans f, s.directives.map (Directives.mapSpans f)⟩

mutual
def Selection.mapSpans (f : Span → Span) : Selection → Selection
  | .field ⟨fieldAlias, name, arguments, directives, set⟩ =>
    .field ⟨fieldAlias.map (Alias.mapSpans f), mapTokenSlot f name,
      arguments.map (Arguments.mapSpans f), directives.map (Directives.mapSpans f),
      match set with
      | none => none
      | some set => some (SelectionSet.mapSpans f set)⟩
  | .spread s => .spread (s.mapSpans f)
  | .inline ⟨dots, condition, directives, set⟩ =>
    .inline ⟨dots.mapSpans f, condition.map (TypeCondition.mapSpans f),
      directives.map (Directives.mapSpans f),
      match set with
      | .present set => .present (SelectionSet.mapSpans f set)
      | .missing gap => .missing (mapGap f gap)⟩
def Selection.mapSpansAll (f : Span → Span) : List Selection → List Selection
  | [] => []
  | s :: rest => s.mapSpans f :: Selection.mapSpansAll f rest
def SelectionSet.mapSpans (f : Span → Span) : Delimited Selection → Delimited Selection
  | ⟨opening, selections, closing⟩ =>
    ⟨opening.mapSpans f, Selection.mapSpansAll f selections, mapTokenSlot f closing⟩
end

def Field.mapSpans (f : Span → Span) (field : Field SelectionSet) : Field SelectionSet :=
  ⟨field.fieldAlias.map (Alias.mapSpans f), mapTokenSlot f field.name,
    field.arguments.map (Arguments.mapSpans f), field.directives.map (Directives.mapSpans f),
    field.selectionSet.map (SelectionSet.mapSpans f)⟩

def InlineFragment.mapSpans (f : Span → Span) (fragment : InlineFragment SelectionSet) :
    InlineFragment SelectionSet :=
  ⟨fragment.dots.mapSpans f, fragment.condition.map (TypeCondition.mapSpans f),
    fragment.directives.map (Directives.mapSpans f),
    mapSlot f (SelectionSet.mapSpans f) fragment.selectionSet⟩

/-! ## Operations and fragments -/

def OperationType.mapSpans (f : Span → Span) (t : OperationType) : OperationType :=
  { t with keyword := t.keyword.mapSpans f }

def VariableDefinition.mapSpans (f : Span → Span) (d : VariableDefinition) : VariableDefinition :=
  ⟨d.var.mapSpans f, mapTokenSlot f d.colon, mapSlot f (TypeRef.mapSpans f) d.type,
    d.default.map (DefaultValue.mapSpans f), d.directives.map (Directives.mapSpans f)⟩

def OperationDefinition.mapSpans (f : Span → Span) (d : OperationDefinition) : OperationDefinition :=
  ⟨d.type.map (OperationType.mapSpans f), d.name.map (Token.mapSpans f),
    d.variableDefinitions.map (Delimited.mapSpans f (VariableDefinition.mapSpans f)),
    d.directives.map (Directives.mapSpans f), mapSlot f (SelectionSet.mapSpans f) d.selectionSet⟩

def FragmentDefinition.mapSpans (f : Span → Span) (d : FragmentDefinition) : FragmentDefinition :=
  ⟨d.keyword.mapSpans f, mapTokenSlot f d.name, mapSlot f (TypeCondition.mapSpans f) d.condition,
    d.directives.map (Directives.mapSpans f), mapSlot f (SelectionSet.mapSpans f) d.selectionSet⟩

/-! ## Parts of the type system -/

def InputValueDefinition.mapSpans (f : Span → Span) (d : InputValueDefinition) :
    InputValueDefinition :=
  ⟨d.description.map (Token.mapSpans f), d.name.mapSpans f, mapTokenSlot f d.colon,
    mapSlot f (TypeRef.mapSpans f) d.type, d.default.map (DefaultValue.mapSpans f),
    d.directives.map (Directives.mapSpans f)⟩

def FieldDefinition.mapSpans (f : Span → Span) (d : FieldDefinition) : FieldDefinition :=
  ⟨d.description.map (Token.mapSpans f), d.name.mapSpans f,
    d.arguments.map (Delimited.mapSpans f (InputValueDefinition.mapSpans f)), mapTokenSlot f d.colon,
    mapSlot f (TypeRef.mapSpans f) d.type, d.directives.map (Directives.mapSpans f)⟩

def EnumValueDefinition.mapSpans (f : Span → Span) (d : EnumValueDefinition) : EnumValueDefinition :=
  ⟨d.description.map (Token.mapSpans f), d.value.mapSpans f, d.directives.map (Directives.mapSpans f)⟩

def FieldedBody.mapSpans (f : Span → Span) (body : FieldedBody) : FieldedBody :=
  ⟨body.interfaces.map (MemberList.mapSpans f (NamedType.mapSpans f)),
    body.directives.map (Directives.mapSpans f),
    body.fields.map (Delimited.mapSpans f (FieldDefinition.mapSpans f))⟩

/-- A body, given how the directives of a scalar are relocated. -/
def TypeBody.mapSpans (f : Span → Span) (scalar : δ → δ) : TypeBody δ → TypeBody δ
  | .scalar directives => .scalar (scalar directives)
  | .object body => .object (body.mapSpans f)
  | .interface body => .interface (body.mapSpans f)
  | .union directives members =>
    .union (directives.map (Directives.mapSpans f))
      (members.map (MemberList.mapSpans f (NamedType.mapSpans f)))
  | .enum directives values =>
    .enum (directives.map (Directives.mapSpans f))
      (values.map (Delimited.mapSpans f (EnumValueDefinition.mapSpans f)))
  | .input directives fields =>
    .input (directives.map (Directives.mapSpans f))
      (fields.map (Delimited.mapSpans f (InputValueDefinition.mapSpans f)))

/-! ## The type system -/

def TypeDefinition.mapSpans (f : Span → Span) (d : TypeDefinition) : TypeDefinition :=
  ⟨d.description.map (Token.mapSpans f), d.keyword.mapSpans f, mapTokenSlot f d.name,
    d.body.mapSpans f (Option.map (Directives.mapSpans f))⟩

def TypeExtension.mapSpans (f : Span → Span) (d : TypeExtension) : TypeExtension :=
  ⟨d.extend.mapSpans f, d.keyword.mapSpans f, mapTokenSlot f d.name,
    d.body.mapSpans f (mapSlot f (Directives.mapSpans f))⟩

def RootOperationType.mapSpans (f : Span → Span) (root : RootOperationType) : RootOperationType :=
  ⟨root.operation.mapSpans f, mapTokenSlot f root.colon, mapSlot f (NamedType.mapSpans f) root.type⟩

def RootOperationTypes.mapSpans (f : Span → Span) (roots : RootOperationTypes) : RootOperationTypes :=
  ⟨roots.opening.mapSpans f, mapSlot f (List.map (RootOperationType.mapSpans f)) roots.entries,
    mapTokenSlot f roots.closing⟩

def SchemaDefinition.mapSpans (f : Span → Span) (d : SchemaDefinition) : SchemaDefinition :=
  ⟨d.description.map (Token.mapSpans f), d.keyword.mapSpans f, d.directives.map (Directives.mapSpans f),
    mapSlot f (RootOperationTypes.mapSpans f) d.roots⟩

def SchemaExtension.mapSpans (f : Span → Span) (d : SchemaExtension) : SchemaExtension :=
  ⟨d.extend.mapSpans f, d.keyword.mapSpans f, d.directives.map (Directives.mapSpans f),
    d.roots.map (RootOperationTypes.mapSpans f)⟩

def DirectiveLocation.mapSpans (f : Span → Span) (l : DirectiveLocation) : DirectiveLocation :=
  ⟨l.name.mapSpans f⟩

def DirectiveDefinition.mapSpans (f : Span → Span) (d : DirectiveDefinition) : DirectiveDefinition :=
  ⟨d.description.map (Token.mapSpans f), d.keyword.mapSpans f, mapTokenSlot f d.sign,
    mapTokenSlot f d.name, d.arguments.map (Delimited.mapSpans f (InputValueDefinition.mapSpans f)),
    d.repeatable.map (Token.mapSpans f),
    mapSlot f (MemberList.mapSpans f (DirectiveLocation.mapSpans f)) d.locations⟩

/-! ## Documents -/

def Definition.mapSpans (f : Span → Span) : Definition → Definition
  | .operation d => .operation (d.mapSpans f)
  | .fragment d => .fragment (d.mapSpans f)
  | .schema d => .schema (d.mapSpans f)
  | .schemaExtension d => .schemaExtension (d.mapSpans f)
  | .type d => .type (d.mapSpans f)
  | .typeExtension d => .typeExtension (d.mapSpans f)
  | .directive d => .directive (d.mapSpans f)

def Document.mapSpans (f : Span → Span) (document : Document) : Document :=
  ⟨document.definitions.map (Definition.mapSpans f)⟩

/-- The document without its places: what two documents have in common that are the same up to
spans. -/
def Document.placeless (document : Document) : Document := document.mapSpans fun _ => Span.nowhere

/-! ## Equations of constructs that nest -/

section Equations

variable (f : Span → Span)

theorem NullableType.mapSpans_list (opening : Token) (item : Required TypeRef)
    (closing : Required Token) :
    (NullableType.list opening item closing).mapSpans f =
      .list (opening.mapSpans f) (mapSlot f (TypeRef.mapSpans f) item) (mapTokenSlot f closing) := by
  cases item <;> rfl

theorem Value.mapSpansAll_eq (values : List Value) :
    Value.mapSpansAll f values = values.map (Value.mapSpans f) := by
  induction values with
  | nil => rfl
  | cons v values ih => rw [Value.mapSpansAll, ih, List.map_cons]

theorem ObjectField.mapSpansAll_eq (fields : List ObjectField) :
    ObjectField.mapSpansAll f fields = fields.map (ObjectField.mapSpans f) := by
  induction fields with
  | nil => rfl
  | cons field fields ih => rw [ObjectField.mapSpansAll, ih, List.map_cons]

theorem Value.mapSpans_list (items : Delimited Value) :
    (Value.list items).mapSpans f = .list (items.mapSpans f (Value.mapSpans f)) := by
  obtain ⟨opening, items, closing⟩ := items
  rw [Value.mapSpans, Value.mapSpansAll_eq]
  rfl

theorem Value.mapSpans_object (fields : Delimited ObjectField) :
    (Value.object fields).mapSpans f = .object (fields.mapSpans f (ObjectField.mapSpans f)) := by
  obtain ⟨opening, fields, closing⟩ := fields
  rw [Value.mapSpans, ObjectField.mapSpansAll_eq]
  rfl

theorem ObjectField.mapSpans_mk (name : Token) (colon : Required Token) (value : Required Value) :
    (ObjectField.mk name colon value).mapSpans f =
      .mk (name.mapSpans f) (mapTokenSlot f colon) (mapSlot f (Value.mapSpans f) value) := by
  cases value <;> rfl

theorem Selection.mapSpansAll_eq (selections : List Selection) :
    Selection.mapSpansAll f selections = selections.map (Selection.mapSpans f) := by
  induction selections with
  | nil => rfl
  | cons s selections ih => rw [Selection.mapSpansAll, ih, List.map_cons]

theorem Selection.mapSpans_field (field : Field SelectionSet) :
    (Selection.field field).mapSpans f = .field (field.mapSpans f) := by
  obtain ⟨fieldAlias, name, arguments, directives, set⟩ := field
  cases set <;> rfl

theorem Selection.mapSpans_inline (fragment : InlineFragment SelectionSet) :
    (Selection.inline fragment).mapSpans f = .inline (fragment.mapSpans f) := by
  obtain ⟨dots, condition, directives, set⟩ := fragment
  cases set <;> rfl

theorem SelectionSet.mapSpans_eq (set : SelectionSet) :
    SelectionSet.mapSpans f set = Delimited.mapSpans f (Selection.mapSpans f) set := by
  obtain ⟨opening, selections, closing⟩ := set
  rw [SelectionSet.mapSpans, Selection.mapSpansAll_eq]
  rfl

end Equations

/-! ## Relocating twice -/

section Twice

variable {γ : Type} (f g : Span → Span)

@[simp] theorem Token.mapSpans_mapSpans (t : Token) :
    (t.mapSpans f).mapSpans g = t.mapSpans fun s => g (f s) := rfl

@[simp] theorem mapSlot_mapSlot (p : α → β) (q : β → γ) (slot : Required α) :
    mapSlot g q (mapSlot f p slot) = mapSlot (fun s => g (f s)) (fun a => q (p a)) slot := by
  cases slot with
  | present a => rfl
  | missing gap => simp [mapSlot, mapGap, Function.comp_def]

@[simp] theorem mapTokenSlot_mapTokenSlot (slot : Required Token) :
    mapTokenSlot g (mapTokenSlot f slot) = mapTokenSlot (fun s => g (f s)) slot := by
  simp [mapTokenSlot]

@[simp] theorem Delimited.mapSpans_mapSpans (p : α → β) (q : β → γ) (items : Delimited α) :
    (items.mapSpans f p).mapSpans g q = items.mapSpans (fun s => g (f s)) fun a => q (p a) := by
  simp [Delimited.mapSpans, Function.comp_def]

@[simp] theorem MemberList.mapSpans_mapSpans (p : α → β) (q : β → γ) (members : MemberList α) :
    (members.mapSpans f p).mapSpans g q = members.mapSpans (fun s => g (f s)) fun a => q (p a) := by
  simp [MemberList.mapSpans, Function.comp_def]

@[simp] theorem NamedType.mapSpans_mapSpans (type : NamedType) :
    (type.mapSpans f).mapSpans g = type.mapSpans fun s => g (f s) := rfl

theorem mapSlot_congr {p q : α → β} {slot : Required α} (h : ∀ a ∈ slot.value?, p a = q a) :
    mapSlot f p slot = mapSlot f q slot := by
  cases slot with
  | present a => rw [mapSlot, h a rfl, mapSlot]
  | missing gap => rfl

theorem Delimited.mapSpans_congr {p q : α → β} {items : Delimited α}
    (h : ∀ a ∈ items.items, p a = q a) : items.mapSpans f p = items.mapSpans f q := by
  rw [Delimited.mapSpans, List.map_congr_left h, Delimited.mapSpans]

theorem TypeRef.hereditary_mapSpans :
    TypeRef.Hereditary (fun type => (type.mapSpans f).mapSpans g = type.mapSpans fun s => g (f s))
      (fun type => (type.mapSpans f).mapSpans g = type.mapSpans fun s => g (f s)) where
  named type := rfl
  list opening item closing inner := by
    simp [NullableType.mapSpans_list, mapSlot_congr _ inner]
  nullable type h := by rw [mapSpans, mapSpans, h, mapSpans]
  nonNull type bang h := by rw [mapSpans, mapSpans, h, mapSpans, Token.mapSpans_mapSpans]

@[simp] theorem TypeRef.mapSpans_mapSpans (type : TypeRef) :
    (type.mapSpans f).mapSpans g = type.mapSpans fun s => g (f s) :=
  (TypeRef.hereditary_mapSpans f g).typeRef type

@[simp] theorem Variable.mapSpans_mapSpans (v : Variable) :
    (v.mapSpans f).mapSpans g = v.mapSpans fun s => g (f s) := by
  simp [Variable.mapSpans]

theorem Value.hereditary_mapSpans :
    Value.Hereditary (fun v => (v.mapSpans f).mapSpans g = v.mapSpans fun s => g (f s))
      (fun field => (field.mapSpans f).mapSpans g = field.mapSpans fun s => g (f s)) where
  var name := by simp [Value.mapSpans]
  int t := rfl
  float t := rfl
  string t := rfl
  boolean t value := rfl
  null t := rfl
  enum t := rfl
  list items inner := by
    simp only [Value.mapSpans_list, Delimited.mapSpans_mapSpans, Delimited.mapSpans_congr _ inner]
  object fields inner := by
    simp only [Value.mapSpans_object, Delimited.mapSpans_mapSpans, Delimited.mapSpans_congr _ inner]
  field name colon value inner := by
    simp [ObjectField.mapSpans_mk, mapSlot_congr _ inner]

@[simp] theorem Value.mapSpans_mapSpans (v : Value) :
    (v.mapSpans f).mapSpans g = v.mapSpans fun s => g (f s) :=
  (Value.hereditary_mapSpans f g).value v

@[simp] theorem DefaultValue.mapSpans_mapSpans (d : DefaultValue) :
    (d.mapSpans f).mapSpans g = d.mapSpans fun s => g (f s) := by
  simp [DefaultValue.mapSpans]

@[simp] theorem Argument.mapSpans_mapSpans (a : Argument) :
    (a.mapSpans f).mapSpans g = a.mapSpans fun s => g (f s) := by
  simp [Argument.mapSpans]

@[simp] theorem Arguments.mapSpans_mapSpans (a : Arguments) :
    Arguments.mapSpans g (Arguments.mapSpans f a) = Arguments.mapSpans (fun s => g (f s)) a := by
  simp [Arguments.mapSpans]

@[simp] theorem Directive.mapSpans_mapSpans (d : Directive) :
    (d.mapSpans f).mapSpans g = d.mapSpans fun s => g (f s) := by
  simp [Directive.mapSpans, Function.comp_def]

@[simp] theorem Directives.mapSpans_mapSpans (ds : Directives) :
    Directives.mapSpans g (Directives.mapSpans f ds) = Directives.mapSpans (fun s => g (f s)) ds := by
  simp [Directives.mapSpans, Function.comp_def]

@[simp] theorem Alias.mapSpans_mapSpans (a : Alias) :
    (a.mapSpans f).mapSpans g = a.mapSpans fun s => g (f s) := rfl

@[simp] theorem TypeCondition.mapSpans_mapSpans (c : TypeCondition) :
    (c.mapSpans f).mapSpans g = c.mapSpans fun s => g (f s) := by
  simp [TypeCondition.mapSpans]

@[simp] theorem FragmentSpread.mapSpans_mapSpans (s : FragmentSpread) :
    (s.mapSpans f).mapSpans g = s.mapSpans fun s => g (f s) := by
  simp [FragmentSpread.mapSpans, Function.comp_def]

theorem Selection.hereditary_mapSpans :
    Selection.Hereditary (fun s => (s.mapSpans f).mapSpans g = s.mapSpans fun s => g (f s))
      (fun set => SelectionSet.mapSpans g (SelectionSet.mapSpans f set) =
        SelectionSet.mapSpans (fun s => g (f s)) set) where
  field field inner := by
    have same : field.selectionSet.map (fun set =>
        SelectionSet.mapSpans g (SelectionSet.mapSpans f set)) =
        field.selectionSet.map (SelectionSet.mapSpans fun s => g (f s)) :=
      Option.map_congr inner
    simp [Selection.mapSpans_field, Field.mapSpans, Function.comp_def, same]
  spread s := by simp [Selection.mapSpans]
  inline fragment inner := by
    simp [Selection.mapSpans_inline, InlineFragment.mapSpans, Function.comp_def,
      mapSlot_congr _ inner]
  set set inner := by
    simp only [SelectionSet.mapSpans_eq, Delimited.mapSpans_mapSpans,
      Delimited.mapSpans_congr _ inner]

@[simp] theorem SelectionSet.mapSpans_mapSpans (set : SelectionSet) :
    SelectionSet.mapSpans g (SelectionSet.mapSpans f set) =
      SelectionSet.mapSpans (fun s => g (f s)) set :=
  (Selection.hereditary_mapSpans f g).selectionSet set

@[simp] theorem OperationType.mapSpans_mapSpans (t : OperationType) :
    (t.mapSpans f).mapSpans g = t.mapSpans fun s => g (f s) := rfl

@[simp] theorem VariableDefinition.mapSpans_mapSpans (d : VariableDefinition) :
    (d.mapSpans f).mapSpans g = d.mapSpans fun s => g (f s) := by
  simp [VariableDefinition.mapSpans, Function.comp_def]

@[simp] theorem OperationDefinition.mapSpans_mapSpans (d : OperationDefinition) :
    (d.mapSpans f).mapSpans g = d.mapSpans fun s => g (f s) := by
  simp [OperationDefinition.mapSpans, Function.comp_def]

@[simp] theorem FragmentDefinition.mapSpans_mapSpans (d : FragmentDefinition) :
    (d.mapSpans f).mapSpans g = d.mapSpans fun s => g (f s) := by
  simp [FragmentDefinition.mapSpans, Function.comp_def]

@[simp] theorem InputValueDefinition.mapSpans_mapSpans (d : InputValueDefinition) :
    (d.mapSpans f).mapSpans g = d.mapSpans fun s => g (f s) := by
  simp [InputValueDefinition.mapSpans, Function.comp_def]

@[simp] theorem FieldDefinition.mapSpans_mapSpans (d : FieldDefinition) :
    (d.mapSpans f).mapSpans g = d.mapSpans fun s => g (f s) := by
  simp [FieldDefinition.mapSpans, Function.comp_def]

@[simp] theorem EnumValueDefinition.mapSpans_mapSpans (d : EnumValueDefinition) :
    (d.mapSpans f).mapSpans g = d.mapSpans fun s => g (f s) := by
  simp [EnumValueDefinition.mapSpans, Function.comp_def]

@[simp] theorem FieldedBody.mapSpans_mapSpans (body : FieldedBody) :
    (body.mapSpans f).mapSpans g = body.mapSpans fun s => g (f s) := by
  simp [FieldedBody.mapSpans, Function.comp_def]

@[simp] theorem TypeBody.mapSpans_mapSpans (p q : δ → δ) (body : TypeBody δ) :
    (body.mapSpans f p).mapSpans g q = body.mapSpans (fun s => g (f s)) fun d => q (p d) := by
  cases body <;> simp [TypeBody.mapSpans, Function.comp_def]

@[simp] theorem TypeDefinition.mapSpans_mapSpans (d : TypeDefinition) :
    (d.mapSpans f).mapSpans g = d.mapSpans fun s => g (f s) := by
  simp only [TypeDefinition.mapSpans, TypeBody.mapSpans_mapSpans, Option.map_map]
  simp [Function.comp_def]

@[simp] theorem TypeExtension.mapSpans_mapSpans (d : TypeExtension) :
    (d.mapSpans f).mapSpans g = d.mapSpans fun s => g (f s) := by
  simp [TypeExtension.mapSpans]

@[simp] theorem RootOperationType.mapSpans_mapSpans (root : RootOperationType) :
    (root.mapSpans f).mapSpans g = root.mapSpans fun s => g (f s) := by
  simp [RootOperationType.mapSpans]

@[simp] theorem RootOperationTypes.mapSpans_mapSpans (roots : RootOperationTypes) :
    (roots.mapSpans f).mapSpans g = roots.mapSpans fun s => g (f s) := by
  simp [RootOperationTypes.mapSpans, Function.comp_def]

@[simp] theorem SchemaDefinition.mapSpans_mapSpans (d : SchemaDefinition) :
    (d.mapSpans f).mapSpans g = d.mapSpans fun s => g (f s) := by
  simp [SchemaDefinition.mapSpans, Function.comp_def]

@[simp] theorem SchemaExtension.mapSpans_mapSpans (d : SchemaExtension) :
    (d.mapSpans f).mapSpans g = d.mapSpans fun s => g (f s) := by
  simp [SchemaExtension.mapSpans, Function.comp_def]

@[simp] theorem DirectiveLocation.mapSpans_mapSpans (l : DirectiveLocation) :
    (l.mapSpans f).mapSpans g = l.mapSpans fun s => g (f s) := rfl

@[simp] theorem DirectiveDefinition.mapSpans_mapSpans (d : DirectiveDefinition) :
    (d.mapSpans f).mapSpans g = d.mapSpans fun s => g (f s) := by
  simp [DirectiveDefinition.mapSpans, Function.comp_def]

@[simp] theorem Definition.mapSpans_mapSpans (d : Definition) :
    (d.mapSpans f).mapSpans g = d.mapSpans fun s => g (f s) := by
  cases d <;> simp [Definition.mapSpans]

/-- Relocating twice is relocating once. -/
@[simp] theorem Document.mapSpans_mapSpans (document : Document) :
    (document.mapSpans f).mapSpans g = document.mapSpans fun s => g (f s) := by
  simp [Document.mapSpans, Function.comp_def]

end Twice

end GraphQL
