import GraphQL.Production.Terminal

/-! # Types and values

Constructs nest to a limit. A production that nests is defined for each number of *levels* that are
left: with none left it is recognized and fails, so that the constructs around it recover. List
types, list values, object fields and selection sets each take one level for what they hold. -/

namespace GraphQL.Production

set_option autoImplicit false

open Recovery (Chain Parser)

def maxNesting : Nat := 64

/-! ## Types -/

def namedType : Parser Token NamedType := name.map NamedType.mk

def listType (item : Parser Token TypeRef) : Parser Token NullableType :=
  (Chain.delimited (punctuator "[") (item.recover (lacking .listTypeItem)) (punctuator "]")
    (unclosed .listTypeClosing)).map fun ((opening, item), closing) => .list opening item closing

/-- A type, with the parser of list types. -/
def typeWith (list : Parser Token NullableType) : Parser Token TypeRef :=
  ((Parser.alt [namedType.map .named, list]).suffixed (punctuator "!")).map fun
    | (base, none) => .nullable base
    | (base, some bang) => .nonNull base bang

/-- A type with `levels` levels left. -/
def type : Nat → Parser Token TypeRef
  | 0 => typeWith (.tooDeep (punctuator "[").recognize)
  | levels + 1 => typeWith (listType (type levels))

/-! ## Values -/

def var : Parser Token Variable :=
  (andSlot (Chain.of (punctuator "$")) name .variableName).map fun (dollar, name) => ⟨dollar, name⟩

def boolean : Parser Token Value :=
  .token "boolean" fun t =>
    if t.isName "true" then some (.boolean t true)
    else if t.isName "false" then some (.boolean t false)
    else none

def enumName : Parser Token Token := nameExcept ["true", "false", "null"]

def listValue (item : Parser Token Value) : Parser Token Value :=
  (delimited "[" "]" item .listValueClosing).map .list

def objectField (value : Parser Token Value) : Parser Token ObjectField :=
  (andSlot (andSlot (Chain.of name) (punctuator ":") .objectFieldColon) value .objectFieldValue).map
    fun ((name, colon), value) => .mk name colon value

/-- A value, with the parsers of list values and object fields. -/
def valueWith (list : Parser Token Value) (field : Parser Token ObjectField) :
    Parser Token Value :=
  .alt [var.map .var, (ofKind "int" .int).map .int, (ofKind "float" .float).map .float,
    stringToken.map .string, boolean, (keyword "null").map .null, enumName.map .enum, list,
    (delimited "\x7b" "\x7d" field .objectValueClosing).map .object]

/-- A value with `levels` levels left. -/
def value : Nat → Parser Token Value
  | 0 => valueWith (.tooDeep (punctuator "[").recognize) (.tooDeep name.recognize)
  | levels + 1 =>
    let inner := value levels
    valueWith (listValue inner) (objectField inner)

def defaultValue : Parser Token DefaultValue :=
  (andSlot (Chain.of (punctuator "=")) (value maxNesting) .defaultValue).map
    fun (eq, value) => ⟨eq, value⟩

/-! ## Arguments and directives -/

def argument (levels : Nat) : Parser Token Argument :=
  (andSlot (andSlot (Chain.of name) (punctuator ":") .argumentColon) (value levels)
    .argumentValue).map fun ((name, colon), value) => ⟨name, colon, value⟩

def arguments (levels : Nat) : Parser Token Arguments :=
  delimited "(" ")" (argument levels) .argumentsClosing

def directive (levels : Nat) : Parser Token Directive :=
  ((andSlot (Chain.of (punctuator "@")) name .directiveName).and (arguments levels).opt).map
    fun ((sign, name), arguments) => ⟨sign, name, arguments⟩

def directives (levels : Nat) : Parser Token Directives := (directive levels).many1

end GraphQL.Production
