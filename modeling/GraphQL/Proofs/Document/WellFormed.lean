import GraphQL.Production.Type
import GraphQL.Proofs.Document.Outline

/-! # Well-formed documents

A document is well formed if nothing is missing in it, every token is of the kind and text that its
place asks for, lists that need an item have one, and its constructs nest no deeper than they can be
read. Two definitions may not stand where a reader would take the second for a body of the first. -/

namespace GraphQL

set_option autoImplicit false

variable {α δ : Type}

/-! ## Shapes -/

/-- The part is there and passes a test. -/
def filled (test : α → Bool) : Required α → Bool
  | .present a => test a
  | .missing _ => false

theorem exists_of_filled {test : α → Bool} {slot : Required α} (h : filled test slot = true) :
    ∃ a, slot = .present a ∧ test a = true := by
  cases slot with
  | present a => exact ⟨a, rfl, h⟩
  | missing gap => cases h

/-- The token is a name that is none of `reserved`. -/
def Token.isNameExcept (reserved : List Text) (t : Token) : Bool :=
  t.kind == .name && !reserved.contains t.text

def Token.isAnyName (t : Token) : Bool := t.kind == .name

def Token.isString (t : Token) : Bool := t.kind == .string

def Delimited.isWellFormed (opening closing : Text) (item : α → Bool) (items : Delimited α) : Bool :=
  items.opening.isPunctuator opening && (items.items.all item &&
    filled (·.isPunctuator closing) items.closing)

def MemberList.isWellFormed (intro separator : Token → Bool) (member : α → Bool)
    (members : MemberList α) : Bool :=
  intro members.intro && (members.leading.all separator && (filled member members.first &&
    members.rest.all fun (mark, next) => separator mark && filled member next))

/-! ## Types and values -/

def NamedType.isWellFormed (type : NamedType) : Bool := type.name.isAnyName

mutual
def NullableType.isWellFormed : NullableType → Bool
  | .named type => type.isWellFormed
  | .list opening (.present item) closing =>
    opening.isPunctuator "[" && (item.isWellFormed && filled (·.isPunctuator "]") closing)
  | .list _ (.missing _) _ => false
def TypeRef.isWellFormed : TypeRef → Bool
  | .nullable type => type.isWellFormed
  | .nonNull type bang => type.isWellFormed && bang.isPunctuator "!"
end

def Variable.isWellFormed (var : Variable) : Bool :=
  var.dollar.isPunctuator "$" && filled Token.isAnyName var.name

mutual
def Value.isWellFormed : Value → Bool
  | .var name => name.isWellFormed
  | .int t => t.kind == .int
  | .float t => t.kind == .float
  | .string t => t.isString
  | .boolean t value => t.isName (if value then "true" else "false")
  | .null t => t.isName "null"
  | .enum t => t.isNameExcept ["true", "false", "null"]
  | .list ⟨opening, items, closing⟩ =>
    opening.isPunctuator "[" && (Value.areWellFormed items && filled (·.isPunctuator "]") closing)
  | .object ⟨opening, fields, closing⟩ =>
    opening.isPunctuator "\x7b" && (ObjectField.areWellFormed fields &&
      filled (·.isPunctuator "\x7d") closing)
def Value.areWellFormed : List Value → Bool
  | [] => true
  | v :: rest => v.isWellFormed && Value.areWellFormed rest
def ObjectField.isWellFormed : ObjectField → Bool
  | .mk name colon (.present value) =>
    name.isAnyName && (filled (·.isPunctuator ":") colon && value.isWellFormed)
  | .mk _ _ (.missing _) => false
def ObjectField.areWellFormed : List ObjectField → Bool
  | [] => true
  | field :: rest => field.isWellFormed && ObjectField.areWellFormed rest
end

theorem NullableType.isWellFormed_list (opening : Token) (item : Required TypeRef)
    (closing : Required Token) :
    (NullableType.list opening item closing).isWellFormed = (opening.isPunctuator "[" &&
      (filled TypeRef.isWellFormed item && filled (·.isPunctuator "]") closing)) := by
  cases item with
  | present item => rw [isWellFormed, filled]
  | missing gap => rw [isWellFormed, filled, Bool.false_and, Bool.and_false]

theorem Value.areWellFormed_eq (values : List Value) :
    Value.areWellFormed values = values.all Value.isWellFormed := by
  induction values with
  | nil => rw [areWellFormed, List.all_nil]
  | cons value values ih => rw [areWellFormed, ih, List.all_cons]

theorem ObjectField.areWellFormed_eq (fields : List ObjectField) :
    ObjectField.areWellFormed fields = fields.all ObjectField.isWellFormed := by
  induction fields with
  | nil => rw [areWellFormed, List.all_nil]
  | cons field fields ih => rw [areWellFormed, ih, List.all_cons]

theorem Value.isWellFormed_list (items : Delimited Value) :
    (Value.list items).isWellFormed = items.isWellFormed "[" "]" Value.isWellFormed := by
  rw [isWellFormed, Value.areWellFormed_eq]
  rfl

theorem Value.isWellFormed_object (fields : Delimited ObjectField) :
    (Value.object fields).isWellFormed =
      fields.isWellFormed "\x7b" "\x7d" ObjectField.isWellFormed := by
  rw [isWellFormed, ObjectField.areWellFormed_eq]
  rfl

theorem ObjectField.isWellFormed_mk (name : Token) (colon : Required Token)
    (value : Required Value) :
    (ObjectField.mk name colon value).isWellFormed = (name.isAnyName &&
      (filled (·.isPunctuator ":") colon && filled Value.isWellFormed value)) := by
  cases value with
  | present value => rw [isWellFormed, filled.eq_1 Value.isWellFormed]
  | missing gap =>
    rw [isWellFormed, filled.eq_2 Value.isWellFormed, Bool.and_false, Bool.and_false]

def DefaultValue.isWellFormed (default : DefaultValue) : Bool :=
  default.eq.isPunctuator "=" && filled Value.isWellFormed default.value

/-! ## Arguments and directives -/

def Argument.isWellFormed (argument : Argument) : Bool :=
  argument.name.isAnyName && (filled (·.isPunctuator ":") argument.colon &&
    filled Value.isWellFormed argument.value)

def Arguments.isWellFormed (arguments : Arguments) : Bool :=
  Delimited.isWellFormed "(" ")" Argument.isWellFormed arguments

def Directive.isWellFormed (directive : Directive) : Bool :=
  directive.sign.isPunctuator "@" && (filled Token.isAnyName directive.name &&
    directive.arguments.all Arguments.isWellFormed)

def Directives.isWellFormed (directives : Directives) : Bool :=
  !directives.isEmpty && directives.all Directive.isWellFormed

/-! ## Selections -/

def Alias.isWellFormed (fieldAlias : Alias) : Bool :=
  fieldAlias.name.isAnyName && fieldAlias.colon.isPunctuator ":"

def TypeCondition.isWellFormed (condition : TypeCondition) : Bool :=
  condition.keyword.isName "on" && filled NamedType.isWellFormed condition.type

def FragmentSpread.isWellFormed (spread : FragmentSpread) : Bool :=
  spread.dots.isPunctuator "..." && (spread.name.isNameExcept ["on"] &&
    spread.directives.all Directives.isWellFormed)

mutual
def Selection.isWellFormed : Selection → Bool
  | .spread s => s.isWellFormed
  | .field ⟨fieldAlias, name, arguments, directives, set⟩ =>
    fieldAlias.all Alias.isWellFormed && (filled Token.isAnyName name &&
      (arguments.all Arguments.isWellFormed && (directives.all Directives.isWellFormed &&
        match set with
        | none => true
        | some set => SelectionSet.isWellFormed set)))
  | .inline ⟨dots, condition, directives, set⟩ =>
    dots.isPunctuator "..." && (condition.all TypeCondition.isWellFormed &&
      (directives.all Directives.isWellFormed &&
        match set with
        | .present set => SelectionSet.isWellFormed set
        | .missing _ => false))
def Selection.areWellFormed : List Selection → Bool
  | [] => true
  | selection :: rest => selection.isWellFormed && Selection.areWellFormed rest
def SelectionSet.isWellFormed : Delimited Selection → Bool
  | ⟨opening, selections, closing⟩ =>
    opening.isPunctuator "\x7b" && (Selection.areWellFormed selections &&
      filled (·.isPunctuator "\x7d") closing)
end

theorem Selection.areWellFormed_eq (selections : List Selection) :
    Selection.areWellFormed selections = selections.all Selection.isWellFormed := by
  induction selections with
  | nil => rw [areWellFormed, List.all_nil]
  | cons selection selections ih => rw [areWellFormed, ih, List.all_cons]

theorem SelectionSet.isWellFormed_eq (set : SelectionSet) :
    SelectionSet.isWellFormed set =
      Delimited.isWellFormed "\x7b" "\x7d" Selection.isWellFormed set := by
  rw [SelectionSet.isWellFormed, Selection.areWellFormed_eq]
  rfl

theorem Selection.isWellFormed_field (field : Field SelectionSet) :
    (Selection.field field).isWellFormed = (field.fieldAlias.all Alias.isWellFormed &&
      (filled Token.isAnyName field.name && (field.arguments.all Arguments.isWellFormed &&
        (field.directives.all Directives.isWellFormed &&
          field.selectionSet.all SelectionSet.isWellFormed)))) := by
  obtain ⟨fieldAlias, name, arguments, directives, set⟩ := field
  cases set <;> rw [isWellFormed] <;> rfl

theorem Selection.isWellFormed_inline (fragment : InlineFragment SelectionSet) :
    (Selection.inline fragment).isWellFormed = (fragment.dots.isPunctuator "..." &&
      (fragment.condition.all TypeCondition.isWellFormed &&
        (fragment.directives.all Directives.isWellFormed &&
          filled SelectionSet.isWellFormed fragment.selectionSet))) := by
  obtain ⟨dots, condition, directives, set⟩ := fragment
  cases set <;> rw [isWellFormed] <;> rfl

/-! ## Operations and fragments -/

/-- The kind of operations is the one that the keyword says. -/
def OperationType.isWellFormed (type : OperationType) : Bool := type.keyword.isName type.kind.keyword

def VariableDefinition.isWellFormed (d : VariableDefinition) : Bool :=
  d.var.isWellFormed && (filled (·.isPunctuator ":") d.colon && (filled TypeRef.isWellFormed d.type &&
    (d.default.all DefaultValue.isWellFormed && d.directives.all Directives.isWellFormed)))

def VariableDefinition.listIsWellFormed (definitions : Delimited VariableDefinition) : Bool :=
  definitions.isWellFormed "(" ")" VariableDefinition.isWellFormed

/-- An operation without a keyword is a selection set alone. -/
def OperationDefinition.isWellFormed (d : OperationDefinition) : Bool :=
  filled SelectionSet.isWellFormed d.selectionSet &&
    match d.type with
    | none => d.name.isNone && (d.variableDefinitions.isNone && d.directives.isNone)
    | some type =>
      type.isWellFormed && (d.name.all Token.isAnyName &&
        (d.variableDefinitions.all VariableDefinition.listIsWellFormed &&
          d.directives.all Directives.isWellFormed))

def FragmentDefinition.isWellFormed (d : FragmentDefinition) : Bool :=
  d.keyword.isName "fragment" && (filled (Token.isNameExcept ["on"]) d.name &&
    (filled TypeCondition.isWellFormed d.condition && (d.directives.all Directives.isWellFormed &&
      filled SelectionSet.isWellFormed d.selectionSet)))

/-! ## Parts of the type system -/

def InputValueDefinition.isWellFormed (d : InputValueDefinition) : Bool :=
  d.description.all Token.isString && (d.name.isAnyName && (filled (·.isPunctuator ":") d.colon &&
    (filled TypeRef.isWellFormed d.type && (d.default.all DefaultValue.isWellFormed &&
      d.directives.all Directives.isWellFormed))))

def InputValueDefinition.argumentsAreWellFormed (definitions : Delimited InputValueDefinition) :
    Bool := definitions.isWellFormed "(" ")" InputValueDefinition.isWellFormed

def InputValueDefinition.fieldsAreWellFormed (definitions : Delimited InputValueDefinition) : Bool :=
  definitions.isWellFormed "\x7b" "\x7d" InputValueDefinition.isWellFormed

def FieldDefinition.isWellFormed (d : FieldDefinition) : Bool :=
  d.description.all Token.isString && (d.name.isAnyName &&
    (d.arguments.all InputValueDefinition.argumentsAreWellFormed &&
      (filled (·.isPunctuator ":") d.colon && (filled TypeRef.isWellFormed d.type &&
        d.directives.all Directives.isWellFormed))))

def FieldDefinition.listIsWellFormed (definitions : Delimited FieldDefinition) : Bool :=
  definitions.isWellFormed "\x7b" "\x7d" FieldDefinition.isWellFormed

def EnumValueDefinition.isWellFormed (d : EnumValueDefinition) : Bool :=
  d.description.all Token.isString && (d.value.isNameExcept ["true", "false", "null"] &&
    d.directives.all Directives.isWellFormed)

def EnumValueDefinition.listIsWellFormed (definitions : Delimited EnumValueDefinition) : Bool :=
  definitions.isWellFormed "\x7b" "\x7d" EnumValueDefinition.isWellFormed

def interfacesAreWellFormed (interfaces : MemberList NamedType) : Bool :=
  interfaces.isWellFormed (·.isName "implements") (·.isPunctuator "&") NamedType.isWellFormed

def unionMembersAreWellFormed (members : MemberList NamedType) : Bool :=
  members.isWellFormed (·.isPunctuator "=") (·.isPunctuator "|") NamedType.isWellFormed

def FieldedBody.isWellFormed (body : FieldedBody) : Bool :=
  body.interfaces.all interfacesAreWellFormed && (body.directives.all Directives.isWellFormed &&
    body.fields.all FieldDefinition.listIsWellFormed)

def TypeBody.isWellFormed (scalar : δ → Bool) : TypeBody δ → Bool
  | .scalar directives => scalar directives
  | .object body => body.isWellFormed
  | .interface body => body.isWellFormed
  | .union directives members =>
    directives.all Directives.isWellFormed && members.all unionMembersAreWellFormed
  | .enum directives values =>
    directives.all Directives.isWellFormed && values.all EnumValueDefinition.listIsWellFormed
  | .input directives fields =>
    directives.all Directives.isWellFormed && fields.all InputValueDefinition.fieldsAreWellFormed

/-! ## The type system -/

def TypeDefinition.isWellFormed (d : TypeDefinition) : Bool :=
  d.description.all Token.isString && (d.keyword.isName d.body.kind.keyword &&
    (filled Token.isAnyName d.name && d.body.isWellFormed (·.all Directives.isWellFormed)))

def TypeExtension.isWellFormed (d : TypeExtension) : Bool :=
  d.extend.isName "extend" && (d.keyword.isName d.body.kind.keyword &&
    (filled Token.isAnyName d.name && d.body.isWellFormed (filled Directives.isWellFormed)))

def RootOperationType.isWellFormed (root : RootOperationType) : Bool :=
  root.operation.isWellFormed && (filled (·.isPunctuator ":") root.colon &&
    filled NamedType.isWellFormed root.type)

def RootOperationTypes.isWellFormed (roots : RootOperationTypes) : Bool :=
  roots.opening.isPunctuator "\x7b" &&
    (filled (fun entries => !entries.isEmpty && entries.all RootOperationType.isWellFormed)
      roots.entries && filled (·.isPunctuator "\x7d") roots.closing)

def SchemaDefinition.isWellFormed (d : SchemaDefinition) : Bool :=
  d.description.all Token.isString && (d.keyword.isName "schema" &&
    (d.directives.all Directives.isWellFormed && filled RootOperationTypes.isWellFormed d.roots))

def SchemaExtension.isWellFormed (d : SchemaExtension) : Bool :=
  d.extend.isName "extend" && (d.keyword.isName "schema" &&
    (d.directives.all Directives.isWellFormed && d.roots.all RootOperationTypes.isWellFormed))

def DirectiveLocation.isWellFormed (location : DirectiveLocation) : Bool :=
  location.name.isAnyName && DirectiveLocation.names.contains location.name.text

def DirectiveLocation.listIsWellFormed (locations : MemberList DirectiveLocation) : Bool :=
  locations.isWellFormed (·.isName "on") (·.isPunctuator "|") DirectiveLocation.isWellFormed

def DirectiveDefinition.isWellFormed (d : DirectiveDefinition) : Bool :=
  d.description.all Token.isString && (d.keyword.isName "directive" &&
    (filled (·.isPunctuator "@") d.sign && (filled (Token.isNameExcept ["on"]) d.name &&
      (d.arguments.all InputValueDefinition.argumentsAreWellFormed &&
        (d.repeatable.all (·.isName "repeatable") &&
          filled DirectiveLocation.listIsWellFormed d.locations)))))

/-! ## Nesting -/

/-- Kinds of nodes that what is in them nests in. -/
def NodeKind.nests : NodeKind → Bool
  | .selectionSet | .listValue | .objectField | .listType => true
  | _ => false

namespace Outline

mutual
/-- The most nodes that nest on any path down an outline. -/
def nesting : Outline → Nat
  | .token _ => 0
  | .missing _ => 0
  | .present content => nestingOf content
  | .node _ n parts => if n.kind.nests then nestingOf parts + 1 else nestingOf parts
/-- The most nodes that nest on any path down one of several outlines. -/
def nestingOf : List Outline → Nat
  | [] => 0
  | outline :: rest => max outline.nesting (nestingOf rest)
end

variable {n : Nat}

@[simp] theorem nesting_token (t : Token) : (Outline.token t).nesting = 0 := by rw [nesting]

theorem nesting_node (role : Role) (node : Node) (parts : List Outline) :
    (Outline.node role node parts).nesting =
      if node.kind.nests then nestingOf parts + 1 else nestingOf parts := by rw [nesting]

/-- Below a node that nests there is a level less. -/
theorem inside_of_nests {role : Role} {node : Node} {parts : List Outline}
    (nests : node.kind.nests = true) (h : (Outline.node role node parts).nesting ≤ n) :
    ∃ m, n = m + 1 ∧ nestingOf parts ≤ m := by
  rw [nesting_node, if_pos nests] at h
  exact ⟨n - 1, by omega, by omega⟩

theorem inside_of_plain {role : Role} {node : Node} {parts : List Outline}
    (plain : node.kind.nests = false) (h : (Outline.node role node parts).nesting ≤ n) :
    nestingOf parts ≤ n := by
  rw [nesting_node, if_neg (plain ▸ Bool.false_ne_true)] at h
  exact h

@[simp] theorem nestingOf_nil : nestingOf [] = 0 := by rw [nestingOf]

@[simp] theorem nestingOf_cons_le {o : Outline} {os : List Outline} :
    nestingOf (o :: os) ≤ n ↔ o.nesting ≤ n ∧ nestingOf os ≤ n := by
  rw [nestingOf]
  omega

@[simp] theorem nestingOf_append_le {os rest : List Outline} :
    nestingOf (os ++ rest) ≤ n ↔ nestingOf os ≤ n ∧ nestingOf rest ≤ n := by
  induction os with
  | nil => simp
  | cons o os ih => rw [List.cons_append, nestingOf_cons_le, ih, nestingOf_cons_le, and_assoc]

@[simp] theorem nestingOf_map_le {outline : α → Outline} {as : List α} :
    nestingOf (as.map outline) ≤ n ↔ ∀ a ∈ as, (outline a).nesting ≤ n := by
  induction as with
  | nil => simp
  | cons a as ih => rw [List.map_cons, nestingOf_cons_le, ih, List.forall_mem_cons]

@[simp] theorem nesting_present_le {outline : α → Outline} {a : α} :
    (single outline (.present a)).nesting ≤ n ↔ (outline a).nesting ≤ n := by
  simp [single, slot, nesting]

@[simp] theorem nesting_tokenSlot (token : Required Token) : (tokenSlot token).nesting = 0 := by
  cases token <;> simp [tokenSlot, single, slot, nesting, nestingOf]

@[simp] theorem nestingOf_optional_le {outline : α → Outline} {a : Option α} :
    nestingOf (optional outline a) ≤ n ↔ ∀ x ∈ a, (outline x).nesting ≤ n := by
  cases a <;> simp [optional]

@[simp] theorem nestingOf_delimited_le {outline : α → Outline} {items : Delimited α} :
    nestingOf (delimited outline items) ≤ n ↔ ∀ a ∈ items.items, (outline a).nesting ≤ n := by
  simp [delimited]

end Outline

/-! ## Documents -/

def Definition.isWellFormed : Definition → Bool
  | .operation d => d.isWellFormed
  | .fragment d => d.isWellFormed
  | .schema d => d.isWellFormed
  | .schemaExtension d => d.isWellFormed
  | .type d => d.isWellFormed
  | .typeExtension d => d.isWellFormed
  | .directive d => d.isWellFormed

/-- A type whose body in braces is lacking. -/
def TypeBody.isOpen : TypeBody δ → Bool
  | .object body => body.fields.isNone
  | .interface body => body.fields.isNone
  | .enum _ values => values.isNone
  | .input _ fields => fields.isNone
  | _ => false

/-- A definition that would take an opening brace behind it for its own. -/
def Definition.isOpen : Definition → Bool
  | .schemaExtension d => d.roots.isNone
  | .type d => d.body.isOpen
  | .typeExtension d => d.body.isOpen
  | _ => false

/-- A selection set alone. -/
def Definition.isShorthand : Definition → Bool
  | .operation d => d.type.isNone
  | _ => false

/-- No selection set alone stands right behind an open definition. -/
def Definition.areApart : List Definition → Bool
  | [] => true
  | d :: rest => !(d.isOpen && rest.head?.any Definition.isShorthand) && Definition.areApart rest

def Document.isWellFormed (document : Document) : Bool :=
  document.definitions.all Definition.isWellFormed && (Definition.areApart document.definitions &&
    decide (document.outline.nesting ≤ Production.maxNesting))

end GraphQL
