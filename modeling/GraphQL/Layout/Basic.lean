import GraphQL.Document.Definition

/-! # Layout of values, types and selections

The canonical layout indents by two blanks and puts one selection or member on a line. Tokens are
copied as they are written, gaps are left out, and separators are chosen by the layout.

* `words`, `block` and `described` are the shapes that constructs are laid out in,
* `X.layout` is the text of an `X`; where it may span lines it takes the indentation of the line it
  starts on. -/

namespace GraphQL

set_option autoImplicit false

open Recovery (Slot)

variable {α : Type}

namespace Layout

/-- One level of indentation. -/
def step : Text := "  "

def separated (separator : Text) (parts : List Text) : Text := List.intercalate separator parts

/-- The texts that are not empty, with a blank between them. -/
def words (parts : List Text) : Text := separated " " (parts.filter fun part => !part.isEmpty)

def listed (parts : List Text) : Text := separated ", " parts

/-- Lines in braces, one level deeper than `indent`. -/
def block (indent : Text) (lines : List Text) : Text :=
  if lines.isEmpty then "\x7b\x7d"
  else "\x7b\n" ++ separated "\n" (lines.map (indent ++ step ++ ·)) ++ "\n" ++ indent ++ "\x7d"

def described (description : Option Token) (indent rest : Text) : Text :=
  match description with
  | none => rest
  | some token => token.text ++ "\n" ++ indent ++ rest

def optional (layout : α → Text) : Option α → Text
  | none => []
  | some a => layout a

/-- The text of a required part; a gap has none. -/
def slot (layout : α → Text) (part : Required α) : Text := optional layout part.value?

def tokenSlot (part : Required Token) : Text := slot Token.text part

end Layout

open Layout

/-! ## Types -/

def NamedType.layout (type : NamedType) : Text := type.name.text

mutual
def NullableType.layout : NullableType → Text
  | .named type => type.layout
  | .list _ (.present item) _ => "[" ++ item.layout ++ "]"
  | .list _ (.missing _) _ => "[]"
def TypeRef.layout : TypeRef → Text
  | .nullable type => type.layout
  | .nonNull type _ => type.layout ++ "!"
end

/-! ## Values -/

def Variable.layout (var : Variable) : Text := "$" ++ tokenSlot var.name

mutual
def Value.layout : Value → Text
  | .var v => v.layout
  | .int t => t.text
  | .float t => t.text
  | .string t => t.text
  | .boolean t _ => t.text
  | .null t => t.text
  | .enum t => t.text
  | .list ⟨_, items, _⟩ => "[" ++ listed (Value.layouts items) ++ "]"
  | .object ⟨_, fields, _⟩ => "\x7b" ++ listed (ObjectField.layouts fields) ++ "\x7d"
def Value.layouts : List Value → List Text
  | [] => []
  | v :: rest => v.layout :: Value.layouts rest
def ObjectField.layout : ObjectField → Text
  | .mk name _ (.present value) => name.text ++ ": " ++ value.layout
  | .mk name _ (.missing _) => name.text ++ ": "
def ObjectField.layouts : List ObjectField → List Text
  | [] => []
  | field :: rest => field.layout :: ObjectField.layouts rest
end

def DefaultValue.layout (default : DefaultValue) : Text := "= " ++ slot Value.layout default.value

/-! ## Arguments and directives -/

def Argument.layout (argument : Argument) : Text :=
  argument.name.text ++ ": " ++ slot Value.layout argument.value

def Arguments.layout (arguments : Arguments) : Text :=
  "(" ++ listed (arguments.items.map Argument.layout) ++ ")"

def Directive.layout (directive : Directive) : Text :=
  "@" ++ tokenSlot directive.name ++ optional Arguments.layout directive.arguments

def Directives.layout (directives : Directives) : Text :=
  separated " " (directives.map Directive.layout)

def Layout.directives (directives : Option Directives) : Text :=
  optional Directives.layout directives

/-! ## Selections -/

def Alias.layout (fieldAlias : Alias) : Text := fieldAlias.name.text ++ ":"

def TypeCondition.layout (condition : TypeCondition) : Text :=
  words ["on", slot NamedType.layout condition.type]

def FragmentSpread.layout (spread : FragmentSpread) : Text :=
  words ["..." ++ spread.name.text, Layout.directives spread.directives]

mutual
def Selection.layout (indent : Text) : Selection → Text
  | .field f => f.layout indent
  | .spread s => s.layout
  | .inline f => f.layout indent
def Selection.layouts (indent : Text) : List Selection → List Text
  | [] => []
  | selection :: rest => selection.layout indent :: Selection.layouts indent rest
def Field.layout (indent : Text) : Field (Delimited Selection) → Text
  | ⟨fieldAlias, name, arguments, directives, set⟩ =>
    words [optional (fun fieldAlias => fieldAlias.layout ++ " ") fieldAlias ++ tokenSlot name ++
        optional Arguments.layout arguments,
      Layout.directives directives,
      match set with
      | none => []
      | some set => SelectionSet.layout indent set]
def InlineFragment.layout (indent : Text) : InlineFragment (Delimited Selection) → Text
  | ⟨_, condition, directives, set⟩ =>
    words ["...", optional TypeCondition.layout condition, Layout.directives directives,
      match set with
      | .present set => SelectionSet.layout indent set
      | .missing _ => []]
def SelectionSet.layout (indent : Text) : Delimited Selection → Text
  | ⟨_, selections, _⟩ => block indent (Selection.layouts (indent ++ step) selections)
end

end GraphQL
