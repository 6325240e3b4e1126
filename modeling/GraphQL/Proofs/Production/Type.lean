import GraphQL.Proofs.Production.Terminal

/-! # Reading types and values

A well-formed type or value is read from its leaves as long as it nests no deeper than the levels
that are left. The proofs go by induction on the levels: what a list holds has one level less. -/

namespace GraphQL.Production

set_option autoImplicit false

open Outline
open Recovery (Chain Cursor Parser)

variable {levels : Nat}

/-! ## Types -/

theorem namedType_takes {type : NamedType} (h : type.isWellFormed = true) :
    namedType.Takes [] [type.name] type := (name_takes h).map NamedType.mk

theorem namedType_guarded : namedType.Guarded [.kind .name] := name_guarded.map NamedType.mk

/-- What types begin with. -/
def typeLeads : List Lead := [.kind .name, .mark "["]

/-- List types with so many levels left. -/
def nestedType : Nat → Parser Token NullableType
  | 0 => .tooDeep (punctuator "[").recognize
  | levels + 1 => listType (type levels)

theorem type_eq (levels : Nat) : type levels = typeWith (nestedType levels) := by
  cases levels <;> rfl

theorem nestedType_guarded (levels : Nat) : (nestedType levels).Guarded [.mark "["] := by
  cases levels with
  | zero => exact Parser.tooDeep_guarded (punctuator_guarded "[").recognize
  | succ levels => exact Chain.map_guarded (punctuator_guarded "[").recognize _

theorem base_guarded (levels : Nat) :
    List.Forall₂ Parser.Guarded [namedType.map .named, nestedType levels]
      [[.kind .name], [.mark "["]] :=
  .cons (namedType_guarded.map _) (.cons (nestedType_guarded levels) .nil)

theorem type_guarded (levels : Nat) : (type levels).Guarded typeLeads := by
  rw [type_eq]
  exact ((Parser.alt_guarded (base_guarded levels)).suffixed _).map _

theorem listType_takes {item : Parser Token TypeRef} {opening closing : Token} {type : TypeRef}
    {leaves : List Token} (ho : opening.isPunctuator "[" = true)
    (hi : item.Takes [.mark "!"] leaves type) (hc : closing.isPunctuator "]" = true) :
    (listType item).Takes [] ([opening] ++ leaves ++ [closing])
      (.list opening (.present type) (.present closing)) := by
  have inner := (Chain.of_takes (punctuator_takes ho)).and
    (hi.reads.recover (lacking .listTypeItem)) fun _ _ => avoids_none _
  exact (closing_reads inner hc rfl fun left => unclosed .listTypeClosing left.1).takes _

theorem nesting_role (type : NullableType) (role role' : Role) :
    (type.outline role).nesting = (type.outline role').nesting := by
  cases type with
  | named type => rfl
  | list opening item closing =>
    rw [NullableType.outline_list, NullableType.outline_list, nesting_node, nesting_node]

/-- A type without bang, if types are read from fewer levels. -/
theorem base_takes
    (inner : ∀ m < levels, ∀ item : TypeRef, item.isWellFormed = true →
      (item.outline .type).nesting ≤ m → (type m).Takes [.mark "!"] (item.outline .type).tokens item)
    {type : NullableType} (role : Role) (h : type.isWellFormed = true)
    (nests : (type.outline role).nesting ≤ levels) :
    (Parser.alt [namedType.map .named, nestedType levels]).Takes [] (type.outline role).tokens
      type := by
  cases type with
  | named type =>
    have leaves : ((NullableType.named type).outline role).tokens = [type.name] := by
      simp [NullableType.outline, NamedType.outline]
    rw [leaves]
    exact ((namedType_takes h).map NullableType.named).alt_head _
  | list opening item closing =>
    rw [NullableType.isWellFormed_list] at h
    rw [NullableType.outline_list] at nests ⊢
    simp only [Bool.and_eq_true] at h
    obtain ⟨ho, hi, hc⟩ := h
    obtain ⟨item, rfl, hi⟩ := exists_of_filled hi
    obtain ⟨closing, rfl, hc⟩ := exists_of_filled hc
    obtain ⟨m, rfl, deep⟩ := inside_of_nests rfl nests
    simp only [nestingOf_cons_le, nesting_present_le] at deep
    have read := listType_takes ho (inner m (Nat.lt_succ_self m) item hi deep.2.1) hc
    have leaves : tokensOf [.token opening, single (TypeRef.outline .type) (.present item),
        tokenSlot (.present closing)] = [opening] ++ (item.outline .type).tokens ++ [closing] := by
      simp
    rw [tokens_node, leaves]
    refine Parser.alt_takes (base_guarded (m + 1)) (i := 1) rfl read fun rest _ => ?_
    exact avoids_cons (l := .mark "[") ho rfl

theorem typeWith_takes {list : Parser Token NullableType} {type : TypeRef}
    (base : ∀ role, (Parser.alt [namedType.map .named, list]).Takes [] (type.base.outline role).tokens
      type.base) (role : Role) (h : type.isWellFormed = true) :
    (typeWith list).Takes [.mark "!"] (type.outline role).tokens type := by
  cases type with
  | nullable type =>
    have lacks := (base role).reads.suffixed_lacking (punctuator "!")
    refine ⟨(base role).some, (lacks.mono fun rest hr => ?_).map _⟩
    exact ⟨avoids_none _, (punctuator_guarded "!").refuses rest hr⟩
  | nonNull type bang =>
    rw [TypeRef.isWellFormed, Bool.and_eq_true] at h
    have leaves : ((TypeRef.nonNull type bang).outline role).tokens =
        (type.outline .type).tokens ++ [bang] := by simp [TypeRef.outline]
    have banged := (base .type).reads.suffixed (punctuator_takes h.2).reads (base .type).some
      (List.cons_ne_nil bang []) fun _ _ => avoids_none _
    rw [leaves]
    refine ⟨List.append_ne_nil_of_left_ne_nil (base .type).some _, ?_⟩
    exact (banged.mono fun _ _ => avoids_none _).map _

theorem type_takes {type : TypeRef} (role : Role) (h : type.isWellFormed = true)
    (nests : (type.outline role).nesting ≤ levels) :
    (Production.type levels).Takes [.mark "!"] (type.outline role).tokens type := by
  induction levels using Nat.strongRecOn generalizing type role with
  | _ levels ih =>
    rw [type_eq]
    have base : type.base.isWellFormed = true ∧ (type.base.outline role).nesting ≤ levels := by
      cases type with
      | nullable type => exact ⟨h, nests⟩
      | nonNull type bang =>
        rw [TypeRef.isWellFormed, Bool.and_eq_true] at h
        have inside := inside_of_plain rfl nests
        rw [nestingOf_cons_le, nesting_role type .type role] at inside
        exact ⟨h.1, inside.1⟩
    refine typeWith_takes (fun role' => ?_) role h
    exact base_takes (fun m hm item => ih m hm .type) role' base.1
      (nesting_role _ role' role ▸ base.2)

/-! ## Values -/

theorem var_takes {v : Variable} (h : v.isWellFormed = true) (role : Role) :
    var.Takes [] ((Value.var v).outline role).tokens v := by
  obtain ⟨dollar, name⟩ := v
  rw [Variable.isWellFormed, Bool.and_eq_true] at h
  obtain ⟨name, rfl, hn⟩ := exists_of_filled h.2
  have chain := (Chain.of_takes (punctuator_takes h.1)).andSlot (name_takes hn) name_guarded.led
    rfl .variableName
  have leaves : ((Value.var ⟨dollar, .present name⟩).outline role).tokens = [dollar] ++ [name] := by
    simp [Value.outline]
  rw [leaves]
  exact chain.takes _

theorem var_guarded : var.Guarded [.mark "$"] :=
  Chain.map_guarded (punctuator_guarded "$").recognize _

theorem boolean_takes {t : Token} {value : Bool}
    (h : t.isName (if value then "true" else "false") = true) :
    boolean.Takes [] [t] (.boolean t value) := by
  refine Parser.token_takes ?_
  cases value with
  | true => exact if_pos h
  | false =>
    have other : t.isName "true" = false :=
      Lead.accepts_of_apart (a := .word "false") (b := .word "true") rfl h
    rw [other]
    exact if_pos h

theorem boolean_guarded : boolean.Guarded [.word "true", .word "false"] := by
  refine Parser.token_guarded fun t ht => ?_
  have notTrue : t.isName "true" = false := ht _ List.mem_cons_self
  have notFalse : t.isName "false" = false := ht _ (List.mem_cons_of_mem _ List.mem_cons_self)
  rw [notTrue, notFalse]
  rfl

/-- List values with so many levels left. -/
def nestedList : Nat → Parser Token Value
  | 0 => .tooDeep (punctuator "[").recognize
  | levels + 1 => listValue (value levels)

/-- Object fields with so many levels left. -/
def nestedField : Nat → Parser Token ObjectField
  | 0 => .tooDeep name.recognize
  | levels + 1 => objectField (value levels)

theorem nestedList_guarded (levels : Nat) : (nestedList levels).Guarded [.mark "["] := by
  cases levels with
  | zero => exact Parser.tooDeep_guarded (punctuator_guarded "[").recognize
  | succ levels => exact (delimited_guarded "[" "]" _ _).map _

theorem nestedField_guarded (levels : Nat) : (nestedField levels).Guarded [.kind .name] := by
  cases levels with
  | zero => exact Parser.tooDeep_guarded name_guarded.recognize
  | succ levels => exact Chain.map_guarded name_guarded.recognize _

/-- Object values with so many levels left. -/
def objectValue (levels : Nat) : Parser Token Value :=
  (delimited "\x7b" "\x7d" (nestedField levels) .objectValueClosing).map .object

/-- The parsers of all sorts of values, in the order in which they are tried. -/
def valueAlternatives (levels : Nat) : List (Parser Token Value) :=
  [var.map .var, (ofKind "int" .int).map .int, (ofKind "float" .float).map .float,
    stringToken.map .string, boolean, (keyword "null").map .null, enumName.map .enum,
    nestedList levels, objectValue levels]

theorem value_eq (levels : Nat) : value levels = .alt (valueAlternatives levels) := by
  cases levels <;> rfl

/-- What each sort of values begins with. -/
def valueGuards : List (List Lead) :=
  [[.mark "$"], [.kind .int], [.kind .float], [.kind .string], [.word "true", .word "false"],
    [.word "null"], [.kind .name], [.mark "["], [.mark "\x7b"]]

theorem value_guards (levels : Nat) :
    List.Forall₂ Parser.Guarded (valueAlternatives levels) valueGuards :=
  .cons (var_guarded.map _) <| .cons ((ofKind_guarded "int" .int).map _) <|
    .cons ((ofKind_guarded "float" .float).map _) <| .cons (stringToken_guarded.map _) <|
    .cons boolean_guarded <| .cons ((keyword_guarded "null").map _) <|
    .cons ((nameExcept_guarded _).map _) <| .cons (nestedList_guarded levels) <|
    .cons ((delimited_guarded _ _ _ _).map _) .nil

theorem value_guarded (levels : Nat) : (value levels).Guarded valueGuards.flatten := by
  rw [value_eq]
  exact Parser.alt_guarded (value_guards levels)

/-- A name that is not reserved begins no other value. -/
theorem avoids_of_enum {t : Token} (h : t.isNameExcept ["true", "false", "null"] = true)
    (rest : List Token) : Avoids (valueGuards.take 6).flatten (t :: rest) := by
  simp only [Token.isNameExcept, Bool.and_eq_true, beq_iff_eq, Bool.not_eq_true',
    List.contains_eq_mem, decide_eq_false_iff_not, List.mem_cons, not_or] at h
  obtain ⟨hk, notTrue, notFalse, notNull, -⟩ := h
  intro t' ht l hl
  cases ht
  simp [valueGuards] at hl
  rcases hl with rfl | rfl | rfl | rfl | rfl | rfl | rfl <;>
    simp [Lead.accepts, Token.isPunctuator, Token.isName, *]

/-- A name, a colon and a value. -/
theorem namedValue_reads {p : Parser Token Value} {name colon : Token} {v : Value}
    {leaves : List Token} {leads : List Lead} (hn : name.isAnyName = true)
    (hc : colon.isPunctuator ":" = true) (hv : p.Takes [] leaves v) (led : p.LedBy leads)
    (noColon noValue : SyntaxCode) :
    (andSlot (andSlot (Chain.of Production.name) (punctuator ":") noColon) p noValue).Reads
      ([name] ++ [colon] ++ leaves) ((name, .present colon), .present v) (Avoids []) :=
  ((Chain.of_takes (name_takes hn)).andSlot (punctuator_takes hc) (punctuator_guarded ":").led rfl
    noColon).andSlot hv led (Lead.allApart_nil leads) noValue

section Nested

/-! The values inside are read with fewer levels. -/

variable (inner : ∀ m < levels, ∀ v : Value, v.isWellFormed = true →
  (v.outline .value).nesting ≤ m → (value m).Takes [] (v.outline .value).tokens v)

include inner

theorem nestedList_takes {items : Delimited Value} (role : Role)
    (h : (Value.list items).isWellFormed = true)
    (nests : ((Value.list items).outline role).nesting ≤ levels) :
    (nestedList levels).Takes [] ((Value.list items).outline role).tokens (.list items) := by
  rw [Value.isWellFormed_list] at h
  rw [Value.outline_list] at nests ⊢
  obtain ⟨m, rfl, deep⟩ := inside_of_nests rfl nests
  rw [nestingOf_delimited_le] at deep
  rw [tokens_node]
  exact (delimited_takes h _ (fun v hv wf => inner m (Nat.lt_succ_self m) v wf (deep v hv))
    (value_guarded m).led (Lead.allApart_nil _) rfl).map _

theorem nestedField_takes {field : ObjectField} (h : field.isWellFormed = true)
    (nests : field.outline.nesting ≤ levels) :
    (nestedField levels).Takes [] field.outline.tokens field := by
  obtain ⟨name, colon, v⟩ := field
  rw [ObjectField.isWellFormed_mk, Bool.and_eq_true, Bool.and_eq_true] at h
  rw [ObjectField.outline_mk] at nests ⊢
  obtain ⟨m, rfl, deep⟩ := inside_of_nests rfl nests
  obtain ⟨hn, hc, hv⟩ := h
  obtain ⟨colon, rfl, hc⟩ := exists_of_filled hc
  obtain ⟨v, rfl, hv⟩ := exists_of_filled hv
  simp only [nestingOf_cons_le, nesting_present_le] at deep
  have read := inner m (Nat.lt_succ_self m) v hv deep.2.2.1
  have leaves : tokensOf [.token name, tokenSlot (.present colon),
      single (Value.outline .value) (.present v)] =
        [name] ++ [colon] ++ (v.outline .value).tokens := by simp
  rw [tokens_node, leaves]
  exact (namedValue_reads hn hc read (value_guarded m).led _ _).takes _

theorem objectValue_takes {fields : Delimited ObjectField} (role : Role)
    (h : (Value.object fields).isWellFormed = true)
    (nests : ((Value.object fields).outline role).nesting ≤ levels) :
    (objectValue levels).Takes [] ((Value.object fields).outline role).tokens (.object fields) := by
  rw [Value.isWellFormed_object] at h
  rw [Value.outline_object] at nests ⊢
  exact (delimitedNode_takes rfl h nests _ (nestedField_takes inner)
    (nestedField_guarded levels).led (Lead.allApart_nil _) rfl).map _

end Nested

theorem value_takes {v : Value} (role : Role) (h : v.isWellFormed = true)
    (nests : (v.outline role).nesting ≤ levels) :
    (value levels).Takes [] (v.outline role).tokens v := by
  induction levels using Nat.strongRecOn generalizing v role with
  | _ levels ih =>
  -- an object nests only with its fields, so the values inside may have any smaller level
  have inner : ∀ m < levels, ∀ v : Value, v.isWellFormed = true →
      (v.outline .value).nesting ≤ m → (value m).Takes [] (v.outline .value).tokens v :=
    fun m hm v => ih m hm .value
  have guards := value_guards levels
  rw [value_eq]
  cases v with
  | var v =>
    rw [Value.isWellFormed] at h
    exact Parser.alt_takes guards (i := 0) rfl ((var_takes h role).map _) fun _ _ => avoids_none _
  | int t =>
    rw [Value.isWellFormed] at h
    rw [Value.outline, tokens_node, tokensOf_cons, tokens_token, tokensOf_nil]
    exact Parser.alt_takes guards (i := 1) rfl ((ofKind_takes "int" h).map _)
      fun _ _ => avoids_cons (l := .kind .int) h rfl
  | float t =>
    rw [Value.isWellFormed] at h
    rw [Value.outline, tokens_node, tokensOf_cons, tokens_token, tokensOf_nil]
    exact Parser.alt_takes guards (i := 2) rfl ((ofKind_takes "float" h).map _)
      fun _ _ => avoids_cons (l := .kind .float) h rfl
  | string t =>
    rw [Value.isWellFormed] at h
    rw [Value.outline, tokens_node, tokensOf_cons, tokens_token, tokensOf_nil]
    exact Parser.alt_takes guards (i := 3) rfl ((stringToken_takes h).map _)
      fun _ _ => avoids_cons (l := .kind .string) h rfl
  | boolean t value =>
    rw [Value.isWellFormed] at h
    rw [Value.outline, tokens_node, tokensOf_cons, tokens_token, tokensOf_nil]
    refine Parser.alt_takes guards (i := 4) rfl (boolean_takes h) fun _ _ => ?_
    cases value with
    | true => exact avoids_cons (l := .word "true") h rfl
    | false => exact avoids_cons (l := .word "false") h rfl
  | null t =>
    rw [Value.isWellFormed] at h
    rw [Value.outline, tokens_node, tokensOf_cons, tokens_token, tokensOf_nil]
    exact Parser.alt_takes guards (i := 5) rfl ((keyword_takes h).map _)
      fun _ _ => avoids_cons (l := .word "null") h rfl
  | enum t =>
    rw [Value.isWellFormed] at h
    rw [Value.outline, tokens_node, tokensOf_cons, tokens_token, tokensOf_nil]
    exact Parser.alt_takes guards (i := 6) rfl ((nameExcept_takes h).map _)
      fun _ _ => avoids_of_enum h _
  | list items =>
    have begins : items.opening.isPunctuator "[" = true := by
      rw [Value.isWellFormed_list, Delimited.isWellFormed, Bool.and_eq_true] at h
      exact h.1
    refine Parser.alt_takes guards (i := 7) rfl (nestedList_takes inner role h nests) fun _ _ => ?_
    rw [Value.outline_list]
    exact avoids_cons (l := .mark "[") begins rfl
  | object fields =>
    have begins : fields.opening.isPunctuator "\x7b" = true := by
      rw [Value.isWellFormed_object, Delimited.isWellFormed, Bool.and_eq_true] at h
      exact h.1
    refine Parser.alt_takes guards (i := 8) rfl (objectValue_takes inner role h nests) fun _ _ => ?_
    rw [Value.outline_object]
    exact avoids_cons (l := .mark "\x7b") begins rfl

theorem defaultValue_takes {default : DefaultValue} (h : default.isWellFormed = true)
    (nests : default.outline.nesting ≤ maxNesting) :
    defaultValue.Takes [] default.outline.tokens default := by
  obtain ⟨eq, v⟩ := default
  rw [DefaultValue.isWellFormed, Bool.and_eq_true] at h
  obtain ⟨v, rfl, hv⟩ := exists_of_filled h.2
  have inside := inside_of_plain rfl nests
  simp only [nestingOf_cons_le, nesting_present_le] at inside
  have read := (Chain.of_takes (punctuator_takes h.1)).andSlot
    (value_takes .value hv inside.2.1) (value_guarded maxNesting).led (Lead.allApart_nil _)
    .defaultValue
  have leaves : (DefaultValue.outline ⟨eq, .present v⟩).tokens =
      [eq] ++ (v.outline .value).tokens := by simp [DefaultValue.outline]
  rw [leaves]
  exact read.takes _

theorem defaultValue_guarded : defaultValue.Guarded [.mark "="] :=
  Chain.map_guarded (punctuator_guarded "=").recognize _

/-! ## Arguments and directives -/

theorem argument_takes {argument : Argument} (h : argument.isWellFormed = true)
    (nests : argument.outline.nesting ≤ levels) :
    (Production.argument levels).Takes [] argument.outline.tokens argument := by
  obtain ⟨name, colon, v⟩ := argument
  rw [Argument.isWellFormed, Bool.and_eq_true, Bool.and_eq_true] at h
  obtain ⟨hn, hc, hv⟩ := h
  obtain ⟨colon, rfl, hc⟩ := exists_of_filled hc
  obtain ⟨v, rfl, hv⟩ := exists_of_filled hv
  have inside := inside_of_plain rfl nests
  simp only [nestingOf_cons_le, nesting_present_le] at inside
  have leaves : (Argument.outline ⟨name, .present colon, .present v⟩).tokens =
      [name] ++ [colon] ++ (v.outline .value).tokens := by simp [Argument.outline]
  rw [leaves]
  exact (namedValue_reads hn hc (value_takes .value hv inside.2.2.1) (value_guarded levels).led
    _ _).takes _

theorem argument_guarded (levels : Nat) : (argument levels).Guarded [.kind .name] :=
  Chain.map_guarded name_guarded.recognize _

theorem arguments_take {arguments : Arguments} (h : arguments.isWellFormed = true)
    (nests : arguments.outline.nesting ≤ levels) :
    (Production.arguments levels).Takes [] arguments.outline.tokens arguments :=
  delimitedNode_takes rfl h nests _ argument_takes (argument_guarded levels).led rfl rfl

theorem arguments_guarded (levels : Nat) : (arguments levels).Guarded [.mark "("] :=
  delimited_guarded _ _ _ _

theorem directive_takes {directive : Directive} (h : directive.isWellFormed = true)
    (nests : directive.outline.nesting ≤ levels) :
    (Production.directive levels).Takes [.mark "("] directive.outline.tokens directive := by
  obtain ⟨sign, name, arguments⟩ := directive
  simp only [Directive.isWellFormed, Bool.and_eq_true, Option.all_eq_true] at h
  obtain ⟨hs, hn, ha⟩ := h
  obtain ⟨name, rfl, hn⟩ := exists_of_filled hn
  have inside := inside_of_plain rfl nests
  simp only [nestingOf_cons_le, nestingOf_optional_le] at inside
  have read := ((Chain.of_takes (punctuator_takes hs)).andSlot (name_takes hn) name_guarded.led rfl
    .directiveName).andOpt (o := arguments)
    (fun a hm => arguments_take (ha a hm) (inside.2.2 a hm)) (arguments_guarded levels).led rfl
  have leaves : (Directive.outline ⟨sign, .present name, arguments⟩).tokens =
      [sign] ++ [name] ++ arguments.elim [] fun a => a.outline.tokens := by
    simp [Directive.outline]
  rw [leaves]
  exact read.takes _

theorem directive_guarded (levels : Nat) : (directive levels).Guarded [.mark "@"] :=
  Chain.map_guarded (punctuator_guarded "@").recognize _

theorem directives_take {directives : Directives} (h : directives.isWellFormed = true)
    (nests : directives.outline.nesting ≤ levels) :
    (Production.directives levels).Takes [.mark "(", .mark "@"] directives.outline.tokens
      directives := by
  simp only [Directives.isWellFormed, Bool.and_eq_true, List.all_eq_true] at h
  have deep := inside_of_plain rfl nests
  rw [nestingOf_map_le] at deep
  rw [Directives.outline, tokens_node, tokensOf_map]
  have some : directives ≠ [] := by
    intro none
    rw [none] at h
    cases h.1
  exact many1_takes (fun d hd => directive_takes (h.2 d hd) (deep d hd))
    (directive_guarded levels).led rfl some

theorem directives_led (levels : Nat) : (directives levels).LedBy [.mark "@"] :=
  (directive_guarded levels).led.many1

/-- Optional directives behind the parts of a chain. -/
theorem andDirectives {α : Type} {chain : Chain Token α} {stops : List Lead} {leaves : List Token}
    {v : α} (h : chain.Reads leaves v (Avoids stops)) {item : Option Directives}
    (wf : item.all Directives.isWellFormed = true)
    (nests : ∀ d ∈ item, (Directives.outline d).nesting ≤ levels)
    (apart : Lead.allApart [.mark "@"] stops = true) :
    (chain.and (directives levels).opt).Reads
      (leaves ++ item.elim [] fun d => (Directives.outline d).tokens) (v, item)
      (Avoids (stops ++ [.mark "@", .mark "("])) := by
  rw [Option.all_eq_true] at wf
  refine (h.andOpt (o := item) (fun d hd => directives_take (wf d hd) (nests d hd))
    (directives_led levels) apart).mono fun rest hr => hr.sub ?_
  simp

end GraphQL.Production
