import GraphQL.Proofs.Production.Isolation
import GraphQL.Proofs.Production.Placement

/-! # Definitions that have begun

A definition is read wherever its first tokens stand, whatever follows them. What is lacking behind
them is recorded, and nothing that may be lacking can fail. So where definitions are looked for none
of these tokens is passed over.

* `opensDefinition` tells the first tokens of definitions,
* `introduced_begun` and `extension_begun` are about keywords, and each body goes on with what has
  begun,
* `begun_definitions` is about definitions and about whole texts. -/

namespace GraphQL

set_option autoImplicit false

open Recovery (Chain Cursor Parser Reading Recognizer)
open Recovery.Parser (opt_total)

namespace Production

variable {α δ : Type} {c : Cursor Token} {chain : Chain Token α} {word : Text} {t : Token}
  {rest : List Token}

/-! ## First tokens -/

/-- The keywords of definitions. -/
def definitionWords : List Text :=
  ["query", "mutation", "subscription", "fragment", "schema", "scalar", "type", "interface",
    "union", "enum", "input", "directive"]

/-- The keywords of what can be extended. -/
def extensionWords : List Text :=
  ["schema", "scalar", "type", "interface", "union", "enum", "input"]

/-- The tokens begin with a keyword, with the brace of a selection set or with an extension. -/
def opensDefinition : List Token → Bool
  | [] => false
  | t :: rest =>
    definitionWords.any t.isName || t.isPunctuator "\x7b" ||
      (t.isName "extend" && rest.head?.any fun k => extensionWords.any k.isName)

theorem peek_of_ahead (hc : c.ahead = t :: rest) : c.peek = some t := by
  rw [c.peek_eq_head?, hc, List.head?_cons]

/-! ## Heads -/

theorem keyword_begun (hc : c.ahead = t :: rest) (h : t.isName word = true) :
    (Chain.of (keyword word)).Begun c := Chain.begun_of_token (peek_of_ahead hc) (if_pos h)

/-- A keyword is no description, and so the description is taken to be lacking. -/
theorem introduced_begun (hc : c.ahead = t :: rest) (h : t.isName word = true) :
    (introduced word).Begun c := by
  have begun := keyword_begun hc h
  refine Chain.begun_andRecognize (fun recovery => ?_) begun.head begun.run
  have named : Avoids [.kind .string] (t :: rest) := avoids_cons (l := .word word) h rfl
  exact stringToken_guarded.refuses _ named c recovery hc

theorem extension_begun {extend k : Token} (hc : c.ahead = extend :: k :: rest)
    (he : extend.isName "extend" = true) (hk : k.isName word = true) :
    (Chain.of (extension word)).Begun c := by
  have next : (c.past [extend]).ahead = k :: rest := Cursor.ahead_past hc
  refine Chain.begun_of ?_ fun recovery _ => ⟨⟨(extend, k), c.position + 2, []⟩, ?_⟩
  all_goals
    unfold extension Parser.terminal
    dsimp only
    rw [readToken_accepted hc he]
    dsimp only
    rw [readToken_accepted next hk]
    rfl

theorem operationType_begun (kind : OperationKind) (hc : c.ahead = t :: rest)
    (h : t.isName kind.keyword = true) : (Chain.of operationType).Begun c := by
  obtain ⟨hk, ht⟩ := Lead.kind_of_word h
  refine Chain.begun_of_token (a := ⟨t, kind⟩) (peek_of_ahead hc) ?_
  rw [hk, ht]
  cases kind <;> rfl

theorem andSlot_begun {β : Type} (h : chain.Begun c) (next : Parser Token β) (code : SyntaxCode) :
    (andSlot chain next code).Begun c := h.andRecover _

/-! ## Bodies -/

/-- The body of a type goes on with a head that has begun. -/
def GoesOn (body : Chain Token α → Chain Token (α × δ)) : Prop :=
  ∀ (chain : Chain Token α) (c : Cursor Token), chain.Begun c → (body chain).Begun c

theorem scalarBody_goesOn : GoesOn (scalarBody (α := α)) := fun _ _ h =>
  (h.and (opt_total _)).onValue _

theorem scalarExtensionBody_goesOn : GoesOn (scalarExtensionBody (α := α)) := fun _ _ h =>
  (andSlot_begun h _ _).onValue _

theorem fieldedBody_goesOn : GoesOn (fieldedBody (α := α)) := fun _ _ h =>
  (((h.and (opt_total _)).and (opt_total _)).and (opt_total _)).onValue _

theorem objectBody_goesOn : GoesOn (objectBody (α := α) (δ := δ)) := fun chain c h =>
  (fieldedBody_goesOn chain c h).onValue _

theorem interfaceBody_goesOn : GoesOn (interfaceBody (α := α) (δ := δ)) := fun chain c h =>
  (fieldedBody_goesOn chain c h).onValue _

theorem unionBody_goesOn : GoesOn (unionBody (α := α) (δ := δ)) := fun _ _ h =>
  ((h.and (opt_total _)).and (opt_total _)).onValue _

theorem enumBody_goesOn : GoesOn (enumBody (α := α) (δ := δ)) := fun _ _ h =>
  ((h.and (opt_total _)).and (opt_total _)).onValue _

theorem inputBody_goesOn : GoesOn (inputBody (α := α) (δ := δ)) := fun _ _ h =>
  ((h.and (opt_total _)).and (opt_total _)).onValue _

/-! ## Executable definitions -/

theorem selectionSet_succeeds (hc : c.ahead = t :: rest) (h : t.isPunctuator "\x7b" = true) :
    (selectionSet maxNesting).Succeeds c :=
  (delimited_opens _ _ _ _).succeeds (by rw [peek_of_ahead hc]; exact h)

theorem namedOperation_succeeds (kind : OperationKind) (hc : c.ahead = t :: rest)
    (h : t.isName kind.keyword = true) : namedOperation.Succeeds c :=
  (andSlot_begun ((((operationType_begun kind hc h).and (opt_total _)).and (opt_total _)).and
    (opt_total _)) _ _).map _

theorem fragmentDefinition_succeeds (hc : c.ahead = t :: rest) (h : t.isName "fragment" = true) :
    fragmentDefinition.Succeeds c :=
  (andSlot_begun ((andSlot_begun (andSlot_begun (keyword_begun hc h) _ _) _ _).and (opt_total _))
    _ _).map _

/-! ## The type system -/

theorem schemaDefinition_succeeds (hc : c.ahead = t :: rest) (h : t.isName "schema" = true) :
    schemaDefinition.Succeeds c :=
  (andSlot_begun ((introduced_begun hc h).and (opt_total _)) _ _).map _

theorem directiveDefinition_succeeds (hc : c.ahead = t :: rest) (h : t.isName "directive" = true) :
    directiveDefinition.Succeeds c :=
  (andSlot_begun (((andSlot_begun (andSlot_begun (introduced_begun hc h) _ _) _ _).and
    (opt_total _)).and (opt_total _)) _ _).map _

theorem typeDefinition_succeeds (kind : TypeKind) {code : SyntaxCode}
    {body : Chain Token DefinitionHead →
      Chain Token (DefinitionHead × TypeBody (Option Directives))}
    (hb : GoesOn body) (hc : c.ahead = t :: rest) (h : t.isName kind.keyword = true) :
    (typeDefinition kind code body).Succeeds c :=
  (hb _ _ (andSlot_begun (introduced_begun hc h) _ _)).map _

section Extensions

variable {extend k : Token} (hc : c.ahead = extend :: k :: rest)
  (he : extend.isName "extend" = true)

include hc he

theorem schemaExtension_succeeds (hk : k.isName "schema" = true) : schemaExtension.Succeeds c :=
  (((extension_begun hc he hk).and (opt_total _)).and (opt_total _)).map _

theorem typeExtension_succeeds (kind : TypeKind) {code : SyntaxCode}
    {body : Chain Token ExtensionHead →
      Chain Token (ExtensionHead × TypeBody (Required Directives))}
    (hb : GoesOn body) (hk : k.isName kind.keyword = true) :
    (typeExtension kind code body).Succeeds c :=
  (hb _ _ (andSlot_begun (extension_begun hc he hk) _ _)).map _

end Extensions

/-! ## Definitions -/

/-- One of several alternatives succeeds. -/
theorem alternative_succeeds {alternatives : List (Parser Token α)} {p : Parser Token α} {i : Nat}
    (hp : alternatives[i]? = some p) (h : p.Succeeds c) : (Parser.alt alternatives).Succeeds c :=
  Parser.alt_succeeds (List.mem_of_getElem? hp) h

theorem succeeds_of_executable {p : Parser Token Definition} {i : Nat}
    (hp : [operationDefinition.map Definition.operation, fragmentDefinition.map .fragment][i]? =
      some p) (h : p.Succeeds c) : definition.Succeeds c :=
  alternative_succeeds (i := 0) rfl (alternative_succeeds hp h)

theorem succeeds_of_operation {p : Parser Token OperationDefinition} {i : Nat}
    (hp : [namedOperation, shorthand][i]? = some p) (h : p.Succeeds c) : definition.Succeeds c :=
  succeeds_of_executable (i := 0) rfl ((alternative_succeeds hp h).map _)

theorem succeeds_of_typeSystem {p : Parser Token Definition} {i : Nat}
    (hp : typeSystemAlternatives[i]? = some p) (h : p.Succeeds c) : definition.Succeeds c :=
  alternative_succeeds (i := 1) rfl (alternative_succeeds hp h)

theorem definition_succeeds (h : opensDefinition c.ahead = true) : definition.Succeeds c := by
  match hc : c.ahead with
  | [] =>
    rw [hc] at h
    cases h
  | t :: rest =>
  rw [hc, opensDefinition, Bool.or_eq_true, Bool.or_eq_true] at h
  obtain (word | brace) | extended := h
  · simp only [definitionWords, List.any_cons, List.any_nil, Bool.or_eq_true, Bool.or_false]
      at word
    obtain h | h | h | h | h | h | h | h | h | h | h | h := word
    · exact succeeds_of_operation (i := 0) rfl (namedOperation_succeeds .query hc h)
    · exact succeeds_of_operation (i := 0) rfl (namedOperation_succeeds .mutation hc h)
    · exact succeeds_of_operation (i := 0) rfl (namedOperation_succeeds .subscription hc h)
    · exact succeeds_of_executable (i := 1) rfl ((fragmentDefinition_succeeds hc h).map _)
    · exact succeeds_of_typeSystem (i := 0) rfl ((schemaDefinition_succeeds hc h).map _)
    · exact succeeds_of_typeSystem (i := 2) rfl
        ((typeDefinition_succeeds .scalar scalarBody_goesOn hc h).map _)
    · exact succeeds_of_typeSystem (i := 4) rfl
        ((typeDefinition_succeeds .object objectBody_goesOn hc h).map _)
    · exact succeeds_of_typeSystem (i := 6) rfl
        ((typeDefinition_succeeds .interface interfaceBody_goesOn hc h).map _)
    · exact succeeds_of_typeSystem (i := 8) rfl
        ((typeDefinition_succeeds .union unionBody_goesOn hc h).map _)
    · exact succeeds_of_typeSystem (i := 10) rfl
        ((typeDefinition_succeeds .enum enumBody_goesOn hc h).map _)
    · exact succeeds_of_typeSystem (i := 12) rfl
        ((typeDefinition_succeeds .input inputBody_goesOn hc h).map _)
    · exact succeeds_of_typeSystem (i := 14) rfl ((directiveDefinition_succeeds hc h).map _)
  · exact succeeds_of_operation (i := 1) rfl ((selectionSet_succeeds hc brace).map _)
  · obtain ⟨he, next⟩ := Bool.and_eq_true_iff.1 extended
    match rest with
    | [] => cases next
    | k :: rest =>
    replace next : extensionWords.any k.isName = true := next
    simp only [extensionWords, List.any_cons, List.any_nil, Bool.or_eq_true, Bool.or_false]
      at next
    obtain h | h | h | h | h | h | h := next
    · exact succeeds_of_typeSystem (i := 1) rfl ((schemaExtension_succeeds hc he h).map _)
    · exact succeeds_of_typeSystem (i := 3) rfl
        ((typeExtension_succeeds hc he .scalar scalarExtensionBody_goesOn h).map _)
    · exact succeeds_of_typeSystem (i := 5) rfl
        ((typeExtension_succeeds hc he .object objectBody_goesOn h).map _)
    · exact succeeds_of_typeSystem (i := 7) rfl
        ((typeExtension_succeeds hc he .interface interfaceBody_goesOn h).map _)
    · exact succeeds_of_typeSystem (i := 9) rfl
        ((typeExtension_succeeds hc he .union unionBody_goesOn h).map _)
    · exact succeeds_of_typeSystem (i := 11) rfl
        ((typeExtension_succeeds hc he .enum enumBody_goesOn h).map _)
    · exact succeeds_of_typeSystem (i := 13) rfl
        ((typeExtension_succeeds hc he .input inputBody_goesOn h).map _)

/-! ## Lists of definitions -/

/-- A definition begins with a leaf, so that reading one uses tokens. -/
theorem definition_forward {recovery : Recognizer Token} {r : Reading Definition}
    (hr : definition.parse c recovery = .ok r) :
    c.position < r.position ∧ r.position ≤ c.tokens.size := by
  obtain ⟨passed, -, accounts⟩ := definition_conserves c recovery r hr
  obtain ⟨t, marks, led⟩ := definition_led c recovery r hr
  rw [Outline.marksOf_cons, Outline.marksOf_nil, List.append_nil,
    marks_definitionOutline .definition] at led
  have leaf : .leaf t ∈ (r.value.outline .plain).marks := by
    rw [led]
    exact List.mem_cons_self
  obtain ⟨i, lower, upper, here⟩ := accounts.leaf_mem leaf
  have inside : i < c.tokens.size := (Array.getElem?_eq_some_iff.1 here).1
  exact ⟨Nat.lt_of_le_of_lt lower upper, accounts.le_size (by omega)⟩

/-- No definition opens where tokens are passed over. -/
theorem definitionsFrom_collects (c : Cursor Token) :
    definition.Collects (Recognizer.endOfInput.or definition.recognize)
      (fun i => opensDefinition (c.moveTo i).ahead = false) c.tokens c.position
      (definitionsFrom c).value := by
  refine (Parser.itemsFrom_collects (fun _ _ => definition_forward) c).mono fun i ⟨e, he⟩ => ?_
  refine Bool.eq_false_iff.2 fun opens => ?_
  have ends := (Recovery.endOfInput_seesEnd (τ := Token)).or definition.recognize
  obtain ⟨r, hr⟩ := definition_succeeds opens _ ends
  rw [hr] at he
  cases he

end Production

open Production

/-- A definition that has begun is read, whatever follows its first tokens and whatever is recovered
to besides the end of the input. So the definitions of a text are read one behind the other, and
none of the tokens that are passed over between them or behind the last one begins a definition. -/
theorem begun_definitions :
    (∀ (c : Cursor Token) (recovery : Recognizer Token), recovery.SeesEnd →
      opensDefinition c.ahead = true → ∃ r, definition.parse c recovery = .ok r) ∧
    ∀ (source : Int) (text : Text),
      definition.Collects (Recognizer.endOfInput.or definition.recognize)
        (fun i => opensDefinition ((lex source text).drop i) = false) (lex source text).toArray 0
        (parse source text).tree.definitions :=
  ⟨fun _ recovery ends h => definition_succeeds h recovery ends,
    fun source text => definitionsFrom_collects (Cursor.start (lex source text).toArray)⟩

/-- Keywords with nothing that they need behind them, and tokens that begin no definition. -/
def abandonedText : Text := "\x7d schema ) extend extend union U ? query"

theorem abandonedText_begun :
    ((List.range 9).filter fun i => opensDefinition ((lex 1 abandonedText).drop i)) = [1, 4, 5, 8] ∧
      (∃ r, definition.parse ⟨(lex 1 abandonedText).toArray, 4⟩ Recognizer.endOfInput = .ok r) ∧
      definition.Collects (Recognizer.endOfInput.or definition.recognize)
        (fun i => opensDefinition ((lex 1 abandonedText).drop i) = false)
        (lex 1 abandonedText).toArray 0 (parse 1 abandonedText).tree.definitions ∧
      (parse 1 abandonedText).tree.definitions.length = 3 := by
  refine ⟨by decide +kernel, ?_, begun_definitions.2 1 abandonedText, by decide +kernel⟩
  exact begun_definitions.1 _ _ Recovery.endOfInput_seesEnd (by decide +kernel)

end GraphQL
