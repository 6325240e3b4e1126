import GraphQL.Production.Operation
import GraphQL.Proofs.Production.Conservation
import GraphQL.Proofs.Relocation.Parser

/-! # Executable definitions at another place

Every production up to fragments is equivariant: what it reads at another place is what it reads
here with its spans mapped. No production looks at the span of a token, so a single token is
accepted at both places or at none, and the combinators do the rest. -/

namespace GraphQL.Production

set_option autoImplicit false

open Recovery (Chain Cursor ParseError Parser Recognizer)

variable {α β : Type} {m : Relocation} {f : α → α} {g : β → β} {levels : Nat}

/-! ## Tokens -/

/-- The test does not tell a token from the same token elsewhere. -/
def Blind (m : Relocation) (test : Token → Bool) : Prop := ∀ t, test (m.token t) = test t

theorem kind_blind (kind : TokenKind) : Blind m (·.kind == kind) := fun _ => rfl

theorem isName_blind (word : Text) : Blind m (·.isName word) := fun _ => rfl

theorem isPunctuator_blind (mark : Text) : Blind m (·.isPunctuator mark) := fun _ => rfl

theorem tested_equivariant {what : Text} {test : Token → Bool} (blind : Blind m test) :
    (Parser.token what fun t => if test t then some t else none).Equivariant m
      (Token.mapSpans m.place) :=
  Parser.token_equivariant fun t => by
    rw [blind t]
    cases test t <;> rfl

theorem ofKind_equivariant {what : Text} {kind : TokenKind} :
    (ofKind what kind).Equivariant m (Token.mapSpans m.place) :=
  tested_equivariant (kind_blind kind)

theorem name_equivariant : name.Equivariant m (Token.mapSpans m.place) := ofKind_equivariant

theorem stringToken_equivariant : stringToken.Equivariant m (Token.mapSpans m.place) :=
  ofKind_equivariant

theorem nameExcept_equivariant {reserved : List Text} :
    (nameExcept reserved).Equivariant m (Token.mapSpans m.place) :=
  tested_equivariant fun _ => rfl

theorem keyword_equivariant {word : Text} :
    (keyword word).Equivariant m (Token.mapSpans m.place) :=
  tested_equivariant (isName_blind word)

theorem punctuator_equivariant {mark : Text} :
    (punctuator mark).Equivariant m (Token.mapSpans m.place) :=
  tested_equivariant (isPunctuator_blind mark)

/-! ## Two tokens -/

theorem terminal_equivariant {read : Cursor Token → Except ParseError (α × Cursor Token)}
    (moved : ∀ c, read (m.cursor c) = (read c).map (Prod.map f m.cursor))
    (some : (Parser.terminal read).Consumes) : (Parser.terminal read).Equivariant m f where
  recognize c := by
    show (read (m.cursor c)).isOk = (read c).isOk
    rw [moved]
    cases read c <;> rfl
  parse {c _ _} _ := by
    simp only [Parser.terminal, moved]
    cases read c <;> rfl
  started _ hr := some hr

theorem readToken_moved {what : Text} {accept : Token → Bool} (blind : Blind m accept)
    (c : Cursor Token) :
    readToken what accept (m.cursor c) =
      (readToken what accept c).map (Prod.map (Token.mapSpans m.place) m.cursor) := by
  simp only [readToken, m.peek_cursor]
  cases c.peek with
  | none => rfl
  | some t =>
    simp only [Option.map_some, blind t, m.advance_cursor]
    cases accept t <;> rfl

theorem extension_consumes {word : Text} : (extension word).Consumes := by
  intro c recovery r h
  obtain ⟨s, d, t, e, hs, ht, rfl⟩ := extension_ok h
  obtain ⟨-, -, rfl⟩ := readToken_ok hs
  obtain ⟨next, -, rfl⟩ := readToken_ok ht
  have behind : (c.advance.moveTo (c.advance.position + 1)).Started := Cursor.started_of_peek next
  exact behind

theorem extension_equivariant {word : Text} :
    (extension word).Equivariant m
      (Prod.map (Token.mapSpans m.place) (Token.mapSpans m.place)) := by
  refine terminal_equivariant (fun c => ?_) extension_consumes
  simp only [readToken_moved (isName_blind _)]
  cases readToken "extend" (·.isName "extend") c with
  | error e => rfl
  | ok found =>
    simp only [Except.map, Prod.map, readToken_moved (isName_blind _)]
    cases readToken word (·.isName word) found.2 <;> rfl

theorem fieldAlias_consumes : fieldAlias.Consumes := by
  intro c recovery r h
  obtain ⟨s, d, t, e, hs, ht, rfl⟩ := fieldAlias_ok h
  obtain ⟨-, -, rfl⟩ := readToken_ok hs
  obtain ⟨next, -, rfl⟩ := readToken_ok ht
  have behind : (c.advance.moveTo (c.advance.position + 1)).Started := Cursor.started_of_peek next
  exact behind

theorem fieldAlias_equivariant : fieldAlias.Equivariant m (Alias.mapSpans m.place) := by
  refine terminal_equivariant (fun c => ?_) fieldAlias_consumes
  simp only [readToken_moved (kind_blind _)]
  cases readToken "alias" (·.kind == .name) c with
  | error e => rfl
  | ok found =>
    simp only [Except.map, Prod.map, readToken_moved (isPunctuator_blind _)]
    cases readToken ":" (·.isPunctuator ":") found.2 <;> rfl

theorem spreadDots_consumes : spreadDots.Consumes := by
  intro c recovery r h
  obtain ⟨s, d, t, hs, -, -, rfl⟩ := spreadDots_ok h
  obtain ⟨here, -, rfl⟩ := readToken_ok hs
  exact Cursor.started_of_peek here

theorem spreadDots_equivariant : spreadDots.Equivariant m (Token.mapSpans m.place) := by
  refine terminal_equivariant (fun c => ?_) spreadDots_consumes
  simp only [readToken_moved (isPunctuator_blind _)]
  cases readToken "..." (·.isPunctuator "...") c with
  | error e => rfl
  | ok found =>
    have same (test : Token → Bool) (blind : Blind m test) :
        (m.cursor found.2).peek.any test = found.2.peek.any test := by
      rw [m.peek_cursor, Option.any_map]
      exact congrArg (found.2.peek.any ·) (funext blind)
    simp only [Except.map, Prod.map]
    rw [same _ fun _ => rfl]
    split <;> rfl

/-! ## Shared shapes -/

theorem keyword_consumes {word : Text} : (keyword word).Consumes := Parser.token_consumes

theorem punctuator_consumes {mark : Text} : (punctuator mark).Consumes := Parser.token_consumes

theorem name_consumes : name.Consumes := Parser.token_consumes

theorem keyword_chain {word : Text} :
    (Chain.of (keyword word)).Equivariant m (Token.mapSpans m.place) :=
  Chain.of_equivariant keyword_equivariant keyword_consumes

theorem punctuator_chain {mark : Text} :
    (Chain.of (punctuator mark)).Equivariant m (Token.mapSpans m.place) :=
  Chain.of_equivariant punctuator_equivariant punctuator_consumes

theorem name_chain : (Chain.of name).Equivariant m (Token.mapSpans m.place) :=
  Chain.of_equivariant name_equivariant name_consumes

theorem andSlot_equivariant {chain : Chain Token α} (hc : chain.Equivariant m f)
    {next : Parser Token β} (hn : next.Equivariant m g) {code : SyntaxCode} :
    (andSlot chain next code).Equivariant m (Prod.map f (mapSlot m.place g)) :=
  hc.andRecover hn fun _ => rfl

theorem delimited_equivariant {opening closing : Text} {item : Parser Token α}
    (hi : item.Equivariant m f) {code : SyntaxCode} :
    (delimited opening closing item code).Equivariant m (Delimited.mapSpans m.place f) :=
  ((punctuator_chain.and hi.many0).andRecover punctuator_equivariant fun _ => rfl).map fun _ => rfl

theorem memberList_equivariant {intro separator : Parser Token Token} {member : Parser Token α}
    (hi : (Chain.of intro).Equivariant m (Token.mapSpans m.place))
    (hs : (Chain.of separator).Equivariant m (Token.mapSpans m.place))
    (hm : member.Equivariant m f) {first next : SyntaxCode} :
    (memberList intro separator member first next).Equivariant m (MemberList.mapSpans m.place f) :=
  ((andSlot_equivariant (hi.and hs.ofParser.opt) hm).and
    (andSlot_equivariant hs hm).toParser.many0).map fun _ => rfl

/-! ## Types -/

theorem namedType_equivariant : namedType.Equivariant m (NamedType.mapSpans m.place) :=
  name_equivariant.map fun _ => rfl

theorem listType_equivariant {item : Parser Token TypeRef}
    (hi : item.Equivariant m (TypeRef.mapSpans m.place)) :
    (listType item).Equivariant m (NullableType.mapSpans m.place) :=
  ((punctuator_chain.andInside (hi.recover rfl)).andRecover punctuator_equivariant
    fun _ => rfl).map fun ⟨⟨opening, item⟩, closing⟩ =>
      (NullableType.mapSpans_list m.place opening item closing).symm

theorem typeWith_equivariant {list : Parser Token NullableType}
    (hl : list.Equivariant m (NullableType.mapSpans m.place)) :
    (typeWith list).Equivariant m (TypeRef.mapSpans m.place) := by
  have base : (Parser.alt [namedType.map .named, list]).Equivariant m
      (NullableType.mapSpans m.place) := by
    refine Parser.alt_equivariant ?_
    simp only [List.forall_mem_cons]
    exact ⟨namedType_equivariant.map fun _ => rfl, hl, List.forall_mem_nil _⟩
  exact (base.suffixed punctuator_equivariant).map fun
    | (_, none) => rfl
    | (_, some _) => rfl

theorem type_equivariant : (type levels).Equivariant m (TypeRef.mapSpans m.place) := by
  induction levels with
  | zero => exact typeWith_equivariant (Parser.tooDeep_equivariant punctuator_equivariant.recognize)
  | succ levels ih => exact typeWith_equivariant (listType_equivariant ih)

/-! ## Values -/

theorem var_chain : (Chain.of var).Equivariant m (Variable.mapSpans m.place) :=
  (andSlot_equivariant punctuator_chain name_equivariant).mapChain fun _ => rfl

theorem var_equivariant : var.Equivariant m (Variable.mapSpans m.place) :=
  (andSlot_equivariant punctuator_chain name_equivariant).map fun _ => rfl

theorem boolean_equivariant : boolean.Equivariant m (Value.mapSpans m.place) :=
  Parser.token_equivariant fun t => by
    have same (word : Text) : (m.token t).isName word = t.isName word := rfl
    rw [same, same]
    cases t.isName "true" <;> cases t.isName "false" <;> rfl

theorem enumName_equivariant : enumName.Equivariant m (Token.mapSpans m.place) :=
  nameExcept_equivariant

theorem listValue_equivariant {item : Parser Token Value}
    (hi : item.Equivariant m (Value.mapSpans m.place)) :
    (listValue item).Equivariant m (Value.mapSpans m.place) :=
  (delimited_equivariant hi).map fun items => (Value.mapSpans_list m.place items).symm

theorem objectField_equivariant {value : Parser Token Value}
    (hv : value.Equivariant m (Value.mapSpans m.place)) :
    (objectField value).Equivariant m (ObjectField.mapSpans m.place) :=
  (andSlot_equivariant (andSlot_equivariant name_chain punctuator_equivariant) hv).map
    fun ⟨⟨name, colon⟩, value⟩ => (ObjectField.mapSpans_mk m.place name colon value).symm

theorem valueWith_equivariant {list : Parser Token Value}
    (hl : list.Equivariant m (Value.mapSpans m.place)) {field : Parser Token ObjectField}
    (hf : field.Equivariant m (ObjectField.mapSpans m.place)) :
    (valueWith list field).Equivariant m (Value.mapSpans m.place) := by
  refine Parser.alt_equivariant ?_
  simp only [List.forall_mem_cons]
  exact ⟨var_equivariant.map fun _ => rfl, ofKind_equivariant.map fun _ => rfl,
    ofKind_equivariant.map fun _ => rfl, stringToken_equivariant.map fun _ => rfl,
    boolean_equivariant, keyword_equivariant.map fun _ => rfl,
    enumName_equivariant.map fun _ => rfl, hl,
    (delimited_equivariant hf).map fun fields => (Value.mapSpans_object m.place fields).symm,
    List.forall_mem_nil _⟩

theorem value_equivariant : (value levels).Equivariant m (Value.mapSpans m.place) := by
  induction levels with
  | zero =>
    exact valueWith_equivariant (Parser.tooDeep_equivariant punctuator_equivariant.recognize)
      (Parser.tooDeep_equivariant name_equivariant.recognize)
  | succ levels ih =>
    exact valueWith_equivariant (listValue_equivariant ih) (objectField_equivariant ih)

theorem defaultValue_equivariant : defaultValue.Equivariant m (DefaultValue.mapSpans m.place) :=
  (andSlot_equivariant punctuator_chain value_equivariant).map fun _ => rfl

/-! ## Arguments and directives -/

theorem argument_equivariant : (argument levels).Equivariant m (Argument.mapSpans m.place) :=
  (andSlot_equivariant (andSlot_equivariant name_chain punctuator_equivariant)
    value_equivariant).map fun _ => rfl

theorem arguments_equivariant : (arguments levels).Equivariant m (Arguments.mapSpans m.place) :=
  delimited_equivariant argument_equivariant

theorem directive_equivariant : (directive levels).Equivariant m (Directive.mapSpans m.place) :=
  ((andSlot_equivariant punctuator_chain name_equivariant).and arguments_equivariant.opt).map
    fun _ => rfl

theorem directives_equivariant : (directives levels).Equivariant m (Directives.mapSpans m.place) :=
  directive_equivariant.many1

/-! ## Selections -/

theorem aliased_chain :
    (andSlot (Chain.of fieldAlias) name .fieldName).Equivariant m
      (Prod.map (Alias.mapSpans m.place) (mapTokenSlot m.place)) :=
  andSlot_equivariant (Chain.of_equivariant fieldAlias_equivariant fieldAlias_consumes)
    name_equivariant

theorem fieldHead_chain :
    (Chain.of fieldHead).Equivariant m
      (Prod.map (Option.map (Alias.mapSpans m.place)) (mapTokenSlot m.place)) := by
  refine Chain.of_equivariant (Parser.alt_equivariant ?_) (Parser.alt_consumes ?_)
  · simp only [List.forall_mem_cons]
    exact ⟨aliased_chain.map fun _ => rfl, name_equivariant.map fun _ => rfl, List.forall_mem_nil _⟩
  · simp only [List.forall_mem_cons]
    exact ⟨(aliased_chain (m := m)).map_consumes _, name_consumes.map _, List.forall_mem_nil _⟩

theorem typeCondition_equivariant : typeCondition.Equivariant m (TypeCondition.mapSpans m.place) :=
  (andSlot_equivariant keyword_chain namedType_equivariant).map fun _ => rfl

theorem fragmentSpread_equivariant :
    (fragmentSpread levels).Equivariant m (FragmentSpread.mapSpans m.place) :=
  (((Chain.of_equivariant spreadDots_equivariant spreadDots_consumes).and name_equivariant).and
    directives_equivariant.opt).map fun _ => rfl

section Selections

variable {set : Parser Token SelectionSet} (hs : set.Equivariant m (SelectionSet.mapSpans m.place))

include hs

theorem field_equivariant : (field levels set).Equivariant m (Field.mapSpans m.place) :=
  (((fieldHead_chain.and arguments_equivariant.opt).and directives_equivariant.opt).and
    hs.opt).map fun _ => rfl

theorem inlineFragment_equivariant :
    (inlineFragment levels set).Equivariant m (InlineFragment.mapSpans m.place) :=
  (andSlot_equivariant ((punctuator_chain.and typeCondition_equivariant.opt).and
    directives_equivariant.opt) hs).map fun _ => rfl

theorem selection_equivariant :
    (selection levels set).Equivariant m (Selection.mapSpans m.place) := by
  refine Parser.alt_equivariant ?_
  simp only [List.forall_mem_cons]
  exact ⟨fragmentSpread_equivariant.map fun _ => rfl,
    (inlineFragment_equivariant hs).map fun fragment =>
      (Selection.mapSpans_inline m.place fragment).symm,
    (field_equivariant hs).map fun field => (Selection.mapSpans_field m.place field).symm,
    List.forall_mem_nil _⟩

end Selections

theorem selectionSet_equivariant :
    (selectionSet levels).Equivariant m (SelectionSet.mapSpans m.place) := by
  induction levels with
  | zero => exact Parser.tooDeep_equivariant punctuator_equivariant.recognize
  | succ levels ih =>
    have same : SelectionSet.mapSpans m.place =
        Delimited.mapSpans m.place (Selection.mapSpans m.place) :=
      funext (SelectionSet.mapSpans_eq m.place)
    rw [same]
    exact delimited_equivariant (selection_equivariant ih)

/-! ## Operations -/

theorem operationType_equivariant : operationType.Equivariant m (OperationType.mapSpans m.place) :=
  Parser.token_equivariant fun t => by
    show (if t.kind == .name then (OperationKind.ofKeyword? t.text).map _ else none) = _
    split
    · rw [Option.map_map]
      rfl
    · rfl

theorem operationType_chain :
    (Chain.of operationType).Equivariant m (OperationType.mapSpans m.place) :=
  Chain.of_equivariant operationType_equivariant Parser.token_consumes

theorem variableDefinition_equivariant :
    variableDefinition.Equivariant m (VariableDefinition.mapSpans m.place) :=
  (((andSlot_equivariant (andSlot_equivariant var_chain punctuator_equivariant)
    type_equivariant).and defaultValue_equivariant.opt).and directives_equivariant.opt).map
    fun _ => rfl

theorem variableDefinitions_equivariant :
    variableDefinitions.Equivariant m
      (Delimited.mapSpans m.place (VariableDefinition.mapSpans m.place)) :=
  delimited_equivariant variableDefinition_equivariant

theorem namedOperation_equivariant :
    namedOperation.Equivariant m (OperationDefinition.mapSpans m.place) :=
  (andSlot_equivariant (((operationType_chain.and name_equivariant.opt).and
    variableDefinitions_equivariant.opt).and directives_equivariant.opt)
    selectionSet_equivariant).map fun _ => rfl

theorem shorthand_equivariant : shorthand.Equivariant m (OperationDefinition.mapSpans m.place) :=
  selectionSet_equivariant.map fun _ => rfl

theorem operationDefinition_equivariant :
    operationDefinition.Equivariant m (OperationDefinition.mapSpans m.place) := by
  refine Parser.alt_equivariant ?_
  simp only [List.forall_mem_cons]
  exact ⟨namedOperation_equivariant, shorthand_equivariant, List.forall_mem_nil _⟩

/-! ## Fragments -/

theorem fragmentDefinition_equivariant :
    fragmentDefinition.Equivariant m (FragmentDefinition.mapSpans m.place) :=
  (andSlot_equivariant ((andSlot_equivariant (andSlot_equivariant keyword_chain
    nameExcept_equivariant) typeCondition_equivariant).and directives_equivariant.opt)
    selectionSet_equivariant).map fun _ => rfl

theorem executableDefinition_equivariant :
    executableDefinition.Equivariant m (Definition.mapSpans m.place) := by
  refine Parser.alt_equivariant ?_
  simp only [List.forall_mem_cons]
  exact ⟨operationDefinition_equivariant.map fun _ => rfl,
    fragmentDefinition_equivariant.map fun _ => rfl, List.forall_mem_nil _⟩

end GraphQL.Production
