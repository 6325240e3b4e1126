import GraphQL.Proofs.Document.Outline
import GraphQL.Document.Walk

/-! # Nodes and their parts

An outline repeats every node beside its parts. It is *genuine* if the parts are those of the node,
at every node below it, and none of them is a definition. The outline of every construct is genuine,
so that a node may be asked for its tokens and its parts without the outline it was met in:

* `Definition.genuine` and `Document.outline_eq` for whole documents,
* `Node.outline_eq`: the outline of a node is the node with its parts. -/

namespace GraphQL

set_option autoImplicit false

open Outline
open Recovery (Slot)

variable {α : Type}

def Outline.parts : Outline → List Outline
  | .node _ _ parts => parts
  | _ => []

def Node.parts (n : Node) : List Outline := n.outline.parts

theorem Node.outline_eq (n : Node) : n.outline = .node .plain n n.parts := by
  cases n with
  | value v => cases v <;> rfl
  | type t =>
    cases t with
    | nullable t => cases t <;> rfl
    | nonNull t bang => rfl
  | objectField f => cases f; rfl
  | selectionSet s => cases s; rfl
  | field f => cases f; rfl
  | inline f => cases f; rfl
  | _ => rfl

theorem Node.tokens_outline (n : Node) : n.outline.tokens = tokensOf n.parts := by
  rw [Node.outline_eq, tokens]

theorem Node.parts_eq {n : Node} {role : Role} {parts : List Outline}
    (h : n.outline = .node role n parts) : n.parts = parts := by
  rw [Node.parts, h, Outline.parts]

theorem TypeRef.outline_eq (role : Role) (type : TypeRef) :
    type.outline role = .node role (.type type) (Node.type type).parts := by
  cases type with
  | nullable type => cases type <;> rfl
  | nonNull type bang => rfl

theorem Value.outline_eq (role : Role) (v : Value) :
    v.outline role = .node role (.value v) (Node.value v).parts := by
  cases v <;> rfl

def Node.isOperation : Node → Bool
  | .operation _ => true
  | _ => false

/-- Every node has the parts it is shown with, and none is a definition. -/
inductive Outline.Genuine : Outline → Prop where
  | token (t : Token) : Genuine (.token t)
  | missing (gap : Recovery.Gap Expectation) : Genuine (.missing gap)
  | present {content : List Outline} (h : ∀ o ∈ content, Genuine o) : Genuine (.present content)
  | node {role : Role} {n : Node} {parts : List Outline} (plain : role ≠ .definition)
      (own : n.parts = parts) (h : ∀ o ∈ parts, Genuine o)
      (inner : n.isOperation = false) : Genuine (.node role n parts)

namespace Outline

attribute [simp] Genuine.token Genuine.missing

def AllGenuine (os : List Outline) : Prop := ∀ o ∈ os, o.Genuine

/-! ## Shapes -/

@[simp] theorem allGenuine_nil : AllGenuine [] := List.forall_mem_nil _

@[simp] theorem allGenuine_cons {o : Outline} {os : List Outline} :
    AllGenuine (o :: os) ↔ o.Genuine ∧ AllGenuine os := List.forall_mem_cons

@[simp] theorem allGenuine_append {os rest : List Outline} :
    AllGenuine (os ++ rest) ↔ AllGenuine os ∧ AllGenuine rest := List.forall_mem_append

@[simp] theorem allGenuine_map {outline : α → Outline} {items : List α} :
    AllGenuine (items.map outline) ↔ ∀ x ∈ items, (outline x).Genuine := List.forall_mem_map

@[simp] theorem allGenuine_optional {outline : α → Outline} {a : Option α} :
    AllGenuine (optional outline a) ↔ ∀ x ∈ a, (outline x).Genuine := by
  cases a <;> simp [optional]

@[simp] theorem allGenuine_optionalToken (t : Option Token) : AllGenuine (optionalToken t) :=
  allGenuine_optional.2 fun t _ => .token t

theorem genuine_slot {content : α → List Outline} {a : Required α}
    (h : ∀ x ∈ a.value?, AllGenuine (content x)) : (slot content a).Genuine := by
  cases a with
  | present a => exact .present (h a rfl)
  | missing gap => exact .missing gap

theorem genuine_single {outline : α → Outline} {a : Required α}
    (h : ∀ x ∈ a.value?, (outline x).Genuine) : (single outline a).Genuine :=
  genuine_slot fun x hx => by simpa using h x hx

@[simp] theorem genuine_tokenSlot (t : Required Token) : (tokenSlot t).Genuine :=
  genuine_single fun t _ => .token t

@[simp] theorem allGenuine_delimited {outline : α → Outline} {items : Delimited α} :
    AllGenuine (delimited outline items) ↔ ∀ x ∈ items.items, (outline x).Genuine := by
  simp [delimited]

theorem allGenuine_members {outline : α → Outline} (h : ∀ x, (outline x).Genuine)
    (list : MemberList α) : AllGenuine (members outline list) := by
  have one (a : Required α) : (single outline a).Genuine := genuine_single fun x _ => h x
  have rest (l : List (Token × Required α)) :
      AllGenuine (l.flatMap fun m => [.token m.1, single outline m.2]) := by
    intro o ho
    obtain ⟨m, -, hm⟩ := List.mem_flatMap.1 ho
    have both : AllGenuine [.token m.1, single outline m.2] := by simp [one]
    exact both o hm
  simp [members, one, rest]

end Outline

/-! ## Types and values -/

@[simp] theorem NamedType.genuine {role : Role} (hr : role ≠ .definition) (type : NamedType) :
    (type.outline role).Genuine := .node hr rfl (by simp) rfl

mutual
theorem NullableType.genuine {role : Role} (hr : role ≠ .definition) :
    (type : NullableType) → (type.outline role).Genuine
  | .named type => NamedType.genuine hr type
  | .list opening (.missing gap) closing => .node hr rfl (by simp) rfl
  | .list opening (.present item) closing => by
    have h : (single (TypeRef.outline .type) (.present item)).Genuine :=
      genuine_single fun _ hx => Option.some.inj hx ▸ TypeRef.genuine (by decide) item
    have parts : AllGenuine [.token opening, single (TypeRef.outline .type) (.present item),
      tokenSlot closing] := by simp [h]
    exact .node hr rfl parts rfl
theorem TypeRef.genuine {role : Role} (hr : role ≠ .definition) :
    (type : TypeRef) → (type.outline role).Genuine
  | .nullable type => NullableType.genuine hr type
  | .nonNull type bang => by
    have h : (type.outline .type).Genuine := NullableType.genuine (by decide) type
    exact .node hr rfl (by simp [h]) rfl
end

mutual
theorem Value.genuine {role : Role} (hr : role ≠ .definition) :
    (v : Value) → (v.outline role).Genuine
  | .var v => .node hr rfl (by simp) rfl
  | .int t => .node hr rfl (by simp) rfl
  | .float t => .node hr rfl (by simp) rfl
  | .string t => .node hr rfl (by simp) rfl
  | .boolean t value => .node hr rfl (by simp) rfl
  | .null t => .node hr rfl (by simp) rfl
  | .enum t => .node hr rfl (by simp) rfl
  | .list ⟨opening, items, closing⟩ => by
    have h : AllGenuine (delimited (Value.outline .value) ⟨opening, items, closing⟩) :=
      allGenuine_delimited.2 (Value.genuine_items items)
    rw [Value.outline_list]
    exact .node hr (Node.parts_eq (Value.outline_list .plain ⟨opening, items, closing⟩)) h rfl
  | .object ⟨opening, fields, closing⟩ => by
    have h : AllGenuine (delimited ObjectField.outline ⟨opening, fields, closing⟩) :=
      allGenuine_delimited.2 (ObjectField.genuine_items fields)
    rw [Value.outline_object]
    exact .node hr (Node.parts_eq (Value.outline_object .plain ⟨opening, fields, closing⟩)) h rfl
theorem Value.genuine_items : (items : List Value) → ∀ v ∈ items, (v.outline .value).Genuine
  | [] => by simp
  | v :: items => by
    have h : (v.outline .value).Genuine := Value.genuine (by decide) v
    simpa [h] using Value.genuine_items items
theorem ObjectField.genuine : (field : ObjectField) → field.outline.Genuine
  | .mk name colon (.missing gap) => .node (by decide) rfl (by simp) rfl
  | .mk name colon (.present value) => by
    have h : (value.outline .value).Genuine := Value.genuine (by decide) value
    have h : (single (Value.outline .value) (.present value)).Genuine :=
      genuine_single fun _ hx => Option.some.inj hx ▸ h
    have parts : AllGenuine [.token name, tokenSlot colon,
      single (Value.outline .value) (.present value)] := by simp [h]
    exact .node (by decide) rfl parts rfl
theorem ObjectField.genuine_items : (fields : List ObjectField) → ∀ f ∈ fields, f.outline.Genuine
  | [] => by simp
  | field :: fields => by
    simpa [ObjectField.genuine field] using ObjectField.genuine_items fields
end

theorem TypeRef.genuine_slot (type : Required TypeRef) :
    (single (TypeRef.outline .type) type).Genuine :=
  genuine_single fun type _ => type.genuine (by decide)

theorem Value.genuine_slot (value : Required Value) :
    (single (Value.outline .value) value).Genuine :=
  genuine_single fun value _ => value.genuine (by decide)

theorem NamedType.genuine_slot (type : Required NamedType) :
    (single (NamedType.outline .plain) type).Genuine :=
  genuine_single fun type _ => type.genuine (by decide)

attribute [simp] TypeRef.genuine_slot Value.genuine_slot NamedType.genuine_slot

@[simp] theorem DefaultValue.genuine (default : DefaultValue) : default.outline.Genuine :=
  .node (by decide) rfl (by simp) rfl

/-! ## Arguments and directives -/

@[simp] theorem Argument.genuine (argument : Argument) : argument.outline.Genuine :=
  .node (by decide) rfl (by simp) rfl

@[simp] theorem Arguments.genuine (arguments : Arguments) : (Arguments.outline arguments).Genuine :=
  .node (by decide) rfl (allGenuine_delimited.2 fun a _ => a.genuine) rfl

@[simp] theorem Directive.genuine (directive : Directive) : directive.outline.Genuine := by
  have h : AllGenuine (.token directive.sign :: tokenSlot directive.name ::
    optional Arguments.outline directive.arguments) := by simp
  exact .node (by decide) rfl h rfl

@[simp] theorem Directives.genuine (directives : Directives) :
    (Directives.outline directives).Genuine :=
  .node (by decide) rfl (allGenuine_map.2 fun d _ => d.genuine) rfl

/-! ## Selections -/

@[simp] theorem Alias.genuine (fieldAlias : Alias) : fieldAlias.outline.Genuine :=
  .node (by decide) rfl (by simp) rfl

@[simp] theorem TypeCondition.genuine (condition : TypeCondition) : condition.outline.Genuine :=
  .node (by decide) rfl (by simp) rfl

theorem FragmentSpread.genuine {role : Role} (hr : role ≠ .definition) (spread : FragmentSpread) :
    (spread.outline role).Genuine := by
  have h : AllGenuine (.token spread.dots :: .token spread.name ::
    optional Directives.outline spread.directives) := by simp
  exact .node hr rfl h rfl

theorem SelectionSet.genuine_of {set : SelectionSet} (h : ∀ s ∈ set.items, s.outline.Genuine) :
    (SelectionSet.outline set).Genuine := by
  rw [SelectionSet.outline_eq]
  exact .node (by decide) (Node.parts_eq (SelectionSet.outline_eq set)) (allGenuine_delimited.2 h)
    rfl

theorem Field.genuine_of {role : Role} (hr : role ≠ .definition) {field : Field SelectionSet}
    (h : ∀ set ∈ field.selectionSet, (SelectionSet.outline set).Genuine) :
    (Field.outline role field).Genuine := by
  have parts : AllGenuine (optional Alias.outline field.fieldAlias ++ tokenSlot field.name ::
      (optional Arguments.outline field.arguments ++
        (optional Directives.outline field.directives ++
          optional SelectionSet.outline field.selectionSet))) := by
    simpa using h
  rw [Field.outline_eq]
  exact .node hr (Node.parts_eq (Field.outline_eq .plain field)) parts rfl

theorem InlineFragment.genuine_of {role : Role} (hr : role ≠ .definition)
    {fragment : InlineFragment SelectionSet}
    (h : ∀ set ∈ fragment.selectionSet.value?, (SelectionSet.outline set).Genuine) :
    (InlineFragment.outline role fragment).Genuine := by
  have set : (single SelectionSet.outline fragment.selectionSet).Genuine := genuine_single h
  have parts : AllGenuine (.token fragment.dots ::
      (optional TypeCondition.outline fragment.condition ++
        (optional Directives.outline fragment.directives ++
          [single SelectionSet.outline fragment.selectionSet]))) := by
    simp [set]
  rw [InlineFragment.outline_eq]
  exact .node hr (Node.parts_eq (InlineFragment.outline_eq .plain fragment)) parts rfl

mutual
theorem Selection.genuine : (selection : Selection) → selection.outline.Genuine
  | .spread s => s.genuine (by decide)
  | .field ⟨_, _, _, _, none⟩ => Field.genuine_of (by decide) (by simp)
  | .field ⟨_, _, _, _, some ⟨opening, selections, closing⟩⟩ => by
    have h : (SelectionSet.outline ⟨opening, selections, closing⟩).Genuine :=
      SelectionSet.genuine_of (Selection.genuine_items selections)
    exact Field.genuine_of (by decide) (by simpa using h)
  | .inline ⟨_, _, _, .missing gap⟩ => InlineFragment.genuine_of (by decide) (by simp [Slot.value?])
  | .inline ⟨_, _, _, .present ⟨opening, selections, closing⟩⟩ => by
    have h : (SelectionSet.outline ⟨opening, selections, closing⟩).Genuine :=
      SelectionSet.genuine_of (Selection.genuine_items selections)
    exact InlineFragment.genuine_of (by decide) (by simpa [Slot.value?] using h)
theorem Selection.genuine_items :
    (selections : List Selection) → ∀ s ∈ selections, s.outline.Genuine
  | [] => by simp
  | selection :: selections => by
    simpa [Selection.genuine selection] using Selection.genuine_items selections
end

@[simp] theorem SelectionSet.genuine (set : SelectionSet) : (SelectionSet.outline set).Genuine :=
  SelectionSet.genuine_of fun s _ => s.genuine

@[simp] theorem SelectionSet.genuine_slot (set : Required SelectionSet) :
    (single SelectionSet.outline set).Genuine := genuine_single fun set _ => SelectionSet.genuine set

/-! ## Parts of definitions -/

@[simp] theorem OperationType.genuine (type : OperationType) : type.outline.Genuine :=
  .node (by decide) rfl (by simp) rfl

@[simp] theorem descriptionOutline_genuine (t : Token) : (descriptionOutline t).Genuine :=
  .node (by decide) rfl (by simp) rfl

@[simp] theorem VariableDefinition.genuine (definition : VariableDefinition) :
    definition.outline.Genuine := by
  have var : (Value.outline .plain (.var definition.var)).Genuine := Value.genuine (by decide) _
  have h : AllGenuine (Value.outline .plain (.var definition.var) ::
      tokenSlot definition.colon :: single (TypeRef.outline .type) definition.type ::
      (optional DefaultValue.outline definition.default ++
        optional Directives.outline definition.directives)) := by simp [var]
  exact .node (by decide) rfl h rfl

@[simp] theorem VariableDefinition.listOutline_genuine (definitions : Delimited VariableDefinition) :
    (VariableDefinition.listOutline definitions).Genuine :=
  .node (by decide) rfl (allGenuine_delimited.2 fun d _ => d.genuine) rfl

@[simp] theorem InputValueDefinition.genuine (definition : InputValueDefinition) :
    definition.outline.Genuine := by
  have h : AllGenuine (optional descriptionOutline definition.description ++
      .token definition.name :: tokenSlot definition.colon ::
      single (TypeRef.outline .type) definition.type ::
      (optional DefaultValue.outline definition.default ++
        optional Directives.outline definition.directives)) := by simp
  exact .node (by decide) rfl h rfl

@[simp] theorem InputValueDefinition.argumentsOutline_genuine
    (definitions : Delimited InputValueDefinition) :
    (InputValueDefinition.argumentsOutline definitions).Genuine :=
  .node (by decide) rfl (allGenuine_delimited.2 fun d _ => d.genuine) rfl

@[simp] theorem InputValueDefinition.fieldsOutline_genuine
    (definitions : Delimited InputValueDefinition) :
    (InputValueDefinition.fieldsOutline definitions).Genuine :=
  .node (by decide) rfl (allGenuine_delimited.2 fun d _ => d.genuine) rfl

@[simp] theorem FieldDefinition.genuine (definition : FieldDefinition) :
    definition.outline.Genuine := by
  have h : AllGenuine (optional descriptionOutline definition.description ++
      .token definition.name ::
      (optional InputValueDefinition.argumentsOutline definition.arguments ++
        tokenSlot definition.colon :: single (TypeRef.outline .type) definition.type ::
        optional Directives.outline definition.directives)) := by simp
  exact .node (by decide) rfl h rfl

@[simp] theorem FieldDefinition.listOutline_genuine (definitions : Delimited FieldDefinition) :
    (FieldDefinition.listOutline definitions).Genuine :=
  .node (by decide) rfl (allGenuine_delimited.2 fun d _ => d.genuine) rfl

@[simp] theorem EnumValueDefinition.genuine (definition : EnumValueDefinition) :
    definition.outline.Genuine := by
  have value : (Value.outline .plain (.enum definition.value)).Genuine := Value.genuine (by decide) _
  have h : AllGenuine (optional descriptionOutline definition.description ++
      Value.outline .plain (.enum definition.value) ::
      optional Directives.outline definition.directives) := by simp [value]
  exact .node (by decide) rfl h rfl

@[simp] theorem EnumValueDefinition.listOutline_genuine
    (definitions : Delimited EnumValueDefinition) :
    (EnumValueDefinition.listOutline definitions).Genuine :=
  .node (by decide) rfl (allGenuine_delimited.2 fun d _ => d.genuine) rfl

@[simp] theorem interfacesOutline_genuine (interfaces : MemberList NamedType) :
    (interfacesOutline interfaces).Genuine :=
  .node (by decide) rfl (allGenuine_members (NamedType.genuine (by decide)) interfaces) rfl

@[simp] theorem unionMembersOutline_genuine (list : MemberList NamedType) :
    (unionMembersOutline list).Genuine :=
  .node (by decide) rfl (allGenuine_members (NamedType.genuine (by decide)) list) rfl

theorem FieldedBody.genuine (body : FieldedBody) : AllGenuine body.outlines := by
  simp [FieldedBody.outlines]

theorem TypeBody.genuine {δ : Type} {scalar : δ → List Outline} (h : ∀ d, AllGenuine (scalar d))
    (body : TypeBody δ) : AllGenuine (body.outlines scalar) := by
  cases body with
  | scalar directives => exact h directives
  | object body => exact body.genuine
  | interface body => exact body.genuine
  | union directives members => simp [TypeBody.outlines]
  | enum directives values => simp [TypeBody.outlines]
  | input directives fields => simp [TypeBody.outlines]

@[simp] theorem RootOperationType.genuine (root : RootOperationType) : root.outline.Genuine :=
  .node (by decide) rfl (by show AllGenuine _; simp) rfl

@[simp] theorem RootOperationTypes.genuine (roots : RootOperationTypes) : roots.outline.Genuine := by
  have entries : (slot (List.map RootOperationType.outline) roots.entries).Genuine :=
    genuine_slot fun entries _ => allGenuine_map.2 fun root _ => root.genuine
  have h : AllGenuine [.token roots.opening,
    slot (List.map RootOperationType.outline) roots.entries, tokenSlot roots.closing] := by
    simp [entries]
  exact .node (by decide) rfl h rfl

theorem DirectiveLocation.genuine (location : DirectiveLocation) : location.outline.Genuine :=
  .node (by decide) rfl (by simp) rfl

theorem DirectiveLocation.listOutline_genuine (locations : MemberList DirectiveLocation) :
    (DirectiveLocation.listOutline locations).Genuine :=
  .node (by decide) rfl (allGenuine_members DirectiveLocation.genuine locations) rfl

/-! ## Definitions and documents -/

theorem Definition.outline_eq (role : Role) (definition : Definition) :
    definition.outline role = .node role definition.node definition.node.parts := by
  cases definition <;> rfl

theorem Definition.genuine (definition : Definition) : AllGenuine definition.node.parts := by
  cases definition with
  | operation d =>
    show AllGenuine (optional OperationType.outline d.type ++ (optionalToken d.name ++
      (optional VariableDefinition.listOutline d.variableDefinitions ++
        (optional Directives.outline d.directives ++
          [single SelectionSet.outline d.selectionSet]))))
    simp
  | fragment d =>
    have condition : (single TypeCondition.outline d.condition).Genuine :=
      genuine_single fun c _ => c.genuine
    show AllGenuine (.token d.keyword :: tokenSlot d.name ::
      single TypeCondition.outline d.condition :: (optional Directives.outline d.directives ++
        [single SelectionSet.outline d.selectionSet]))
    simp [condition]
  | schema d =>
    have roots : (single RootOperationTypes.outline d.roots).Genuine :=
      genuine_single fun r _ => r.genuine
    show AllGenuine (optional descriptionOutline d.description ++ .token d.keyword ::
      (optional Directives.outline d.directives ++ [single RootOperationTypes.outline d.roots]))
    simp [roots]
  | schemaExtension d =>
    show AllGenuine (.token d.extend :: .token d.keyword ::
      (optional Directives.outline d.directives ++ optional RootOperationTypes.outline d.roots))
    simp
  | type d =>
    have body : AllGenuine (d.body.outlines (optional Directives.outline)) :=
      d.body.genuine fun _ => by simp
    show AllGenuine (optional descriptionOutline d.description ++ .token d.keyword ::
      tokenSlot d.name :: d.body.outlines (optional Directives.outline))
    simp [body]
  | typeExtension d =>
    have directives (ds : Required Directives) : AllGenuine [single Directives.outline ds] := by
      have : (single Directives.outline ds).Genuine := genuine_single fun ds _ => Directives.genuine ds
      simp [this]
    have body : AllGenuine (d.body.outlines fun ds => [single Directives.outline ds]) :=
      d.body.genuine directives
    show AllGenuine (.token d.extend :: .token d.keyword :: tokenSlot d.name ::
      d.body.outlines fun ds => [single Directives.outline ds])
    simp [body]
  | directive d =>
    have locations : (single DirectiveLocation.listOutline d.locations).Genuine :=
      genuine_single fun l _ => DirectiveLocation.listOutline_genuine l
    show AllGenuine (optional descriptionOutline d.description ++ .token d.keyword ::
      tokenSlot d.sign :: tokenSlot d.name ::
      (optional InputValueDefinition.argumentsOutline d.arguments ++
        (optionalToken d.repeatable ++ [single DirectiveLocation.listOutline d.locations])))
    simp [locations]

end GraphQL
