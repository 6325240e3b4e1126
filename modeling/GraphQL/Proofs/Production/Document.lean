import GraphQL.Production.Document
import GraphQL.Proofs.Production.TypeSystem

/-! # Reading documents

Every well-formed document is read back from its leaves, `document_complete`.

A definition of the type system may have a description in front of its keyword, and all
alternatives that are tried in front of its own read the description too. They fail at the keyword,
since the list of definitions waits for definitions and would go on there. -/

namespace GraphQL

set_option autoImplicit false

open Outline
open Recovery (Chain Cursor Parser Recognizer)

namespace Production

variable {α β δ : Type} {c stop : Cursor Token} {rest leaves : List Token}

/-! ## Openings -/

/-- What a definition of the type system begins with: a keyword, perhaps behind a description, or
`extend` and a keyword. -/
inductive Opening where
  | described (word : Text)
  | extending (word : Text)
deriving DecidableEq

namespace Opening

def leads : Opening → List Lead
  | .described word => [.kind .string, .word word]
  | .extending _ => [.word "extend"]

/-- No keyword of a definition is taken for the start of an extension. -/
def isProper : Opening → Bool
  | .described word => word != "extend"
  | .extending _ => true

/-- The opening stands at `c`, and at `stop` what is behind its description. -/
inductive StandsAt (c : Cursor Token) : Opening → Cursor Token → Prop where
  | described {description : Option Token} {keyword : Token} {word : Text} (rest : List Token)
      (hd : description.all Token.isString = true) (hk : keyword.isName word = true)
      (hc : c.ahead = (description.elim [] fun t => [t]) ++ keyword :: rest) :
      StandsAt c (.described word) (c.past (description.elim [] fun t => [t]))
  | extending {extend keyword : Token} {word : Text} (rest : List Token)
      (he : extend.isName "extend" = true) (hk : keyword.isName word = true)
      (hc : c.ahead = extend :: keyword :: rest) : StandsAt c (.extending word) c

theorem StandsAt.begins {o : Opening} (h : o.StandsAt c stop) : Begins o.leads c.ahead := by
  cases h with
  | @described description keyword word rest hd hk hc =>
    rw [hc]
    cases description with
    | none => exact begins_cons (l := .word word) (by simp [leads]) hk
    | some t => exact begins_cons (l := .kind .string) (by simp [leads]) hd
  | extending rest he hk hc =>
    rw [hc]
    exact begins_cons (l := .word "extend") (by simp [leads]) he

end Opening

/-! ## Wrong alternatives -/

/-- Behind a description another keyword fails the chain. -/
theorem introduced_stuck {description : Option Token} {keyword : Token} {word word' : Text}
    (hd : description.all Token.isString = true) (hk : keyword.isName word' = true)
    (hc : c.ahead = (description.elim [] fun t => [t]) ++ keyword :: rest) (other : word' ≠ word) :
    (introduced word).Stuck c (c.past (description.elim [] fun t => [t])) := by
  intro recovery here
  have apart : Lead.apart (.word word') (.word word) = true := bne_iff_ne.2 other
  have described := (description_reads hd).parses c _
    (recovery.or (Production.keyword word).recognize) hc
    (avoids_cons (l := .word word') hk rfl) (Parser.or_left here)
  have behind := Cursor.ahead_past hc
  have refused : (Production.keyword word).Refuses (keyword :: rest) := by
    refine (keyword_guarded word).refuses _ (avoids_cons (l := .word word') hk ?_)
    simp [Lead.allApart, apart]
  obtain ⟨e, he⟩ := refused _ recovery behind
  refine ⟨.refused, ?_⟩
  show Chain.required _ _ c recovery = _
  unfold Chain.required Chain.of
  dsimp only
  rw [described]
  dsimp only
  rw [Cursor.moveTo_past, Parser.search_of_error he here]

/-- The parser is one of definitions with an opening. Where another opening stands it fails, as
long as definitions are waited for. -/
structure Opening.Opens (o : Opening) (p : Parser Token α) : Prop where
  guarded : p.Guarded o.leads
  recognizes : ∀ c stop : Cursor Token, o.StandsAt c stop → p.recognize stop = true
  stuck : ∀ (o' : Opening) (c stop : Cursor Token), o' ≠ o → o'.isProper = true →
    o'.StandsAt c stop → p.Stuck c stop

namespace Opening

variable {chain : Chain Token α} {word : Text}

theorem extend_apart (proper : (described word).isProper = true) :
    Lead.allApart [.word "extend"] (described word).leads = true := by
  simp only [isProper, bne_iff_ne] at proper
  simp [Lead.allApart, leads, Lead.apart, proper.symm]

theorem described_apart (proper : (described word).isProper = true) :
    Lead.allApart (described word).leads [.word "extend"] = true := by
  simp only [isProper, bne_iff_ne] at proper
  simp [Lead.allApart, leads, Lead.apart, proper]

theorem Opens.map {o : Opening} {p : Parser Token α} (h : o.Opens p) (f : α → β) :
    o.Opens (p.map f) :=
  ⟨h.guarded.map f, h.recognizes, fun o' c stop ne proper stands =>
    (h.stuck o' c stop ne proper stands).map f⟩

theorem described_opens (h : chain.Extends (introduced word))
    (proper : (described word).isProper = true) (f : α → β) :
    (described word).Opens (chain.map f) where
  guarded := by
    refine Chain.map_guarded (fun c hc => ?_) f
    rw [h.head]
    exact described_unrecognized (keyword_guarded word) hc
  recognizes := by
    intro c stop stands
    cases stands with
    | @described description keyword _ rest hd hk hc =>
      show chain.head _ = true
      rw [h.head]
      exact Parser.or_right ((keyword_takes hk).reads.recognizes (List.cons_ne_nil _ _) _ rest
        (Cursor.ahead_past hc) (avoids_none _))
  stuck := by
    intro o' c stop ne proper' stands
    cases stands with
    | described rest hd hk hc =>
      refine Chain.Stuck.map (h.stuck _ _ (introduced_stuck hd hk hc fun same => ?_)) f
      exact ne (congrArg described same)
    | extending rest he hk hc =>
      refine (Chain.toParser_refuses fun c' hc' => ?_).stuck
      show chain.head c' = false
      rw [h.head]
      refine described_unrecognized (keyword_guarded word) ?_
      rw [hc', hc]
      exact avoids_cons (l := .word "extend") he (extend_apart proper)

theorem extending_opens (h : chain.Extends (Chain.of (extension word))) (f : α → β) :
    (extending word).Opens (chain.map f) where
  guarded := by
    refine Chain.map_guarded (fun c hc => ?_) f
    rw [h.head]
    exact (extension_guarded word).recognize c hc
  recognizes := by
    intro c stop stands
    cases stands with
    | @extending extend keyword _ rest he hk hc =>
      show chain.head _ = true
      rw [h.head]
      exact (extension_takes he hk).reads.recognizes (List.cons_ne_nil _ _) _ rest hc (avoids_none _)
  stuck := by
    intro o' c stop ne proper stands
    have begins := stands.begins
    refine (Chain.toParser_refuses fun c' hc' => ?_).stuck
    show chain.head c' = false
    rw [h.head]
    cases stands with
    | described rest hd hk hc =>
      rw [← hc'] at begins
      exact (extension_guarded word).recognize c' (begins.avoids (described_apart proper))
    | @extending extend keyword word' rest he hk hc =>
      have other : Lead.apart (.word word') (.word word) = true :=
        bne_iff_ne.2 fun same => ne (congrArg extending same)
      exact extension_unrecognized (hc'.trans hc) he (Lead.accepts_of_apart other hk)

end Opening

/-! ## Alternatives -/

open Recovery.Chain (Extends)
open Opening (described extending described_opens extending_opens)

theorem andSlot_extends (chain : Chain Token α) (next : Parser Token β) (code : SyntaxCode) :
    (andSlot chain next code).Extends chain := (Extends.refl chain).andRecover next _

theorem scalarBody_extends (chain : Chain Token α) : (scalarBody chain).Extends chain :=
  ((Extends.refl chain).and _).onValue _

theorem scalarExtensionBody_extends (chain : Chain Token α) :
    (scalarExtensionBody chain).Extends chain := (andSlot_extends chain _ _).onValue _

theorem fieldedBody_extends (chain : Chain Token α) : (fieldedBody chain).Extends chain :=
  ((((Extends.refl chain).and _).and _).and _).onValue _

theorem objectBody_extends (chain : Chain Token α) :
    (objectBody chain : Chain Token (α × TypeBody δ)).Extends chain :=
  (fieldedBody_extends chain).onValue _

theorem interfaceBody_extends (chain : Chain Token α) :
    (interfaceBody chain : Chain Token (α × TypeBody δ)).Extends chain :=
  (fieldedBody_extends chain).onValue _

theorem unionBody_extends (chain : Chain Token α) :
    (unionBody chain : Chain Token (α × TypeBody δ)).Extends chain :=
  (((Extends.refl chain).and _).and _).onValue _

theorem enumBody_extends (chain : Chain Token α) :
    (enumBody chain : Chain Token (α × TypeBody δ)).Extends chain :=
  (((Extends.refl chain).and _).and _).onValue _

theorem inputBody_extends (chain : Chain Token α) :
    (inputBody chain : Chain Token (α × TypeBody δ)).Extends chain :=
  (((Extends.refl chain).and _).and _).onValue _

theorem typeDefinition_opens (kind : TypeKind) (code : SyntaxCode)
    {body : Chain Token DefinitionHead →
      Chain Token (DefinitionHead × TypeBody (Option Directives))}
    (hb : ∀ chain, (body chain).Extends chain) :
    (described kind.keyword).Opens (typeDefinition kind code body) :=
  described_opens ((hb _).trans (andSlot_extends _ _ _)) (by cases kind <;> rfl) _

theorem typeExtension_opens (kind : TypeKind) (code : SyntaxCode)
    {body : Chain Token ExtensionHead →
      Chain Token (ExtensionHead × TypeBody (Required Directives))}
    (hb : ∀ chain, (body chain).Extends chain) :
    (extending kind.keyword).Opens (typeExtension kind code body) :=
  extending_opens ((hb _).trans (andSlot_extends _ _ _)) _

theorem schemaDefinition_opens : (described "schema").Opens schemaDefinition :=
  described_opens ((andSlot_extends _ _ _).trans ((Extends.refl _).and _)) rfl _

theorem schemaExtension_opens : (extending "schema").Opens schemaExtension :=
  extending_opens (((Extends.refl _).and _).and _) _

theorem directiveDefinition_opens : (described "directive").Opens directiveDefinition :=
  described_opens ((andSlot_extends _ _ _).trans (((((andSlot_extends _ _ _).trans
    (andSlot_extends _ _ _))).and _).and _)) rfl _

/-- The parsers of all definitions of the type system, in the order in which they are tried. -/
def typeSystemAlternatives : List (Parser Token Definition) :=
  [schemaDefinition.map .schema, schemaExtension.map .schemaExtension,
    (typeDefinition .scalar .scalarName scalarBody).map .type,
    (typeExtension .scalar .scalarExtensionName scalarExtensionBody).map .typeExtension,
    (typeDefinition .object .objectName objectBody).map .type,
    (typeExtension .object .objectExtensionName objectBody).map .typeExtension,
    (typeDefinition .interface .interfaceName interfaceBody).map .type,
    (typeExtension .interface .interfaceExtensionName interfaceBody).map .typeExtension,
    (typeDefinition .union .unionName unionBody).map .type,
    (typeExtension .union .unionExtensionName unionBody).map .typeExtension,
    (typeDefinition .enum .enumName enumBody).map .type,
    (typeExtension .enum .enumExtensionName enumBody).map .typeExtension,
    (typeDefinition .input .inputName inputBody).map .type,
    (typeExtension .input .inputExtensionName inputBody).map .typeExtension,
    directiveDefinition.map .directive]

/-- The kinds of types, in the order in which their definitions are tried. -/
def typeKinds : List TypeKind := [.scalar, .object, .interface, .union, .enum, .input]

/-- The openings of all definitions of the type system, in the order in which they are tried. -/
def openings : List Opening :=
  .described "schema" :: .extending "schema" ::
    (typeKinds.flatMap fun kind => [.described kind.keyword, .extending kind.keyword]) ++
      [.described "directive"]

theorem typeSystem_opens :
    List.Forall₂ Opening.Opens openings typeSystemAlternatives :=
  .cons (schemaDefinition_opens.map _) <| .cons (schemaExtension_opens.map _) <|
    .cons ((typeDefinition_opens .scalar _ scalarBody_extends).map _) <|
    .cons ((typeExtension_opens .scalar _ scalarExtensionBody_extends).map _) <|
    .cons ((typeDefinition_opens .object _ objectBody_extends).map _) <|
    .cons ((typeExtension_opens .object _ objectBody_extends).map _) <|
    .cons ((typeDefinition_opens .interface _ interfaceBody_extends).map _) <|
    .cons ((typeExtension_opens .interface _ interfaceBody_extends).map _) <|
    .cons ((typeDefinition_opens .union _ unionBody_extends).map _) <|
    .cons ((typeExtension_opens .union _ unionBody_extends).map _) <|
    .cons ((typeDefinition_opens .enum _ enumBody_extends).map _) <|
    .cons ((typeExtension_opens .enum _ enumBody_extends).map _) <|
    .cons ((typeDefinition_opens .input _ inputBody_extends).map _) <|
    .cons ((typeExtension_opens .input _ inputBody_extends).map _) <|
    .cons (directiveDefinition_opens.map _) .nil

theorem openings_nodup : openings.Nodup := by decide

theorem openings_proper : ∀ o ∈ openings, o.isProper = true := by decide

theorem opens_at {openings : List Opening} {alternatives : List (Parser Token α)} {i : Nat}
    {o : Opening} {p : Parser Token α} (opens : List.Forall₂ Opening.Opens openings alternatives)
    (ho : openings[i]? = some o) (hp : alternatives[i]? = some p) : o.Opens p := by
  induction opens generalizing i with
  | nil => cases hp
  | cons first _ ih =>
    cases i with
    | zero =>
      cases ho
      cases hp
      exact first
    | succ i => exact ih ho hp

/-- The alternative whose opening stands ahead is taken. -/
theorem firstOf_opens {openings : List Opening} {alternatives : List (Parser Token α)} {i : Nat}
    {o : Opening} {p : Parser Token α} {recovery : Recognizer Token} {reading : Recovery.Reading α}
    (opens : List.Forall₂ Opening.Opens openings alternatives) (nodup : openings.Nodup)
    (ho : openings[i]? = some o) (hp : alternatives[i]? = some p) (proper : o.isProper = true)
    (stands : o.StandsAt c stop) (here : recovery stop = true)
    (parsed : p.parse c recovery = .ok reading) :
    Parser.firstOf c recovery alternatives = .ok reading := by
  induction opens generalizing i with
  | nil => cases hp
  | @cons o' q openings _ first _ ih =>
    cases i with
    | zero =>
      cases hp
      rw [Parser.firstOf, parsed]
    | succ i =>
      rw [List.nodup_cons] at nodup
      have other : o ≠ o' := by
        rintro rfl
        exact nodup.1 (List.mem_of_getElem? ho)
      obtain ⟨e, he⟩ := first.stuck o c stop other proper stands recovery here
      rw [Parser.firstOf, he]
      exact ih nodup.2 ho hp

/-! ## Definitions -/

/-- What operations and fragments begin with. -/
def executableLeads : List Lead := [operationLeads ++ [.mark "\x7b"], [.word "fragment"]].flatten

theorem executableDefinition_guarded : executableDefinition.Guarded executableLeads :=
  Parser.alt_guarded (.cons (operationDefinition_guarded.map _)
    (.cons (fragmentDefinition_guarded.map _) .nil))

theorem openings_apart : ∀ o ∈ openings, Lead.allApart o.leads executableLeads = true := by decide

theorem definition_recognize {p : Parser Token Definition} (hp : p ∈ typeSystemAlternatives)
    (h : p.recognize c = true) : definition.recognize c = true := by
  have recognized : typeSystemDefinition.recognize c = true := List.any_eq_true.2 ⟨p, hp, h⟩
  show (executableDefinition.recognize c || (typeSystemDefinition.recognize c || false)) = true
  rw [recognized, Bool.true_or, Bool.or_true]

theorem typeSystem_item {i : Nat} {o : Opening} {p : Parser Token Definition} {d : Definition}
    {stops : List Lead} (ho : openings[i]? = some o) (hp : typeSystemAlternatives[i]? = some p)
    (takes : p.Takes stops leaves d)
    (stands : ∀ (c : Cursor Token) rest, c.ahead = leaves ++ rest → ∃ stop, o.StandsAt c stop) :
    definition.ReadsItem leaves d (Avoids stops) where
  some := takes.some
  parses := by
    intro c rest recovery hc hr here
    obtain ⟨stop, hs⟩ := stands c rest hc
    have member : o ∈ openings := List.mem_of_getElem? ho
    -- the keyword is a recovery point: the list would take the definition up from there
    have point : (recovery.or definition.recognize) stop = true :=
      Parser.or_right (definition_recognize (List.mem_of_getElem? hp)
        ((opens_at typeSystem_opens ho hp).recognizes c stop hs))
    have chosen : typeSystemDefinition.parse c (recovery.or definition.recognize) =
        .ok ⟨d, (c.past leaves).position, []⟩ :=
      firstOf_opens typeSystem_opens openings_nodup ho hp (openings_proper o member) hs point
        (takes.reads.parses c rest _ hc hr here)
    obtain ⟨e, he⟩ := executableDefinition_guarded.refuses c.ahead
      (hs.begins.avoids (openings_apart o member)) c (recovery.or definition.recognize) rfl
    show Parser.firstOf c _ [executableDefinition, typeSystemDefinition] = _
    rw [Parser.firstOf, he]
    dsimp only
    rw [Parser.firstOf, chosen]
  recognizes := by
    intro c rest hc hr
    exact definition_recognize (List.mem_of_getElem? hp)
      (takes.reads.recognizes takes.some c rest hc hr)

theorem described_stands {description : Option Token} {keyword : Token} {word : Text}
    {more : List Token} (hd : description.all Token.isString = true)
    (hk : keyword.isName word = true)
    (hl : leaves = (description.elim [] fun t => [t]) ++ keyword :: more) :
    ∀ (c : Cursor Token) rest, c.ahead = leaves ++ rest → ∃ stop, (described word).StandsAt c stop :=
  fun c rest hc => ⟨_, .described (more ++ rest) hd hk (by rw [hc, hl]; simp)⟩

theorem extending_stands {extend keyword : Token} {word : Text} {more : List Token}
    (he : extend.isName "extend" = true) (hk : keyword.isName word = true)
    (hl : leaves = extend :: keyword :: more) :
    ∀ (c : Cursor Token) rest, c.ahead = leaves ++ rest → ∃ stop, (extending word).StandsAt c stop :=
  fun c rest hc => ⟨_, .extending (more ++ rest) he hk (by rw [hc, hl]; simp)⟩

section Types

variable {i : Nat} {code : SyntaxCode} {stops : List Lead}

theorem typeDefinition_item {d : TypeDefinition} {body : Chain Token DefinitionHead →
      Chain Token (DefinitionHead × TypeBody (Option Directives))}
    (ho : openings[i]? = some (described d.body.kind.keyword))
    (hp : typeSystemAlternatives[i]? = some ((typeDefinition d.body.kind code body).map .type))
    (hd : d.description.all Token.isString = true)
    (hk : d.keyword.isName d.body.kind.keyword = true)
    (hn : filled Token.isAnyName d.name = true)
    (reads : ∀ {chain : Chain Token DefinitionHead} {leaves v}, chain.Reads leaves v (Avoids []) →
      (body chain).Reads (leaves ++ tokensOf (d.body.outlines (optional Directives.outline)))
        (v, d.body) (Avoids stops)) :
    definition.ReadsItem (d.outline .definition).tokens (.type d) (Avoids stops) := by
  have takes := (typeDefinition_takes .definition code hd hk hn reads).map Definition.type
  have leaves : (d.outline .definition).tokens = (d.description.elim [] fun t => [t]) ++
      d.keyword :: ((tokenSlot d.name).tokens ++
        tokensOf (d.body.outlines (optional Directives.outline))) := by
    simp [TypeDefinition.outline]
  exact typeSystem_item ho hp takes (described_stands hd hk leaves)

theorem type_reads {d : TypeDefinition} (h : d.isWellFormed = true)
    (nests : (d.outline .definition).nesting ≤ maxNesting) :
    definition.ReadsItem (d.outline .definition).tokens (.type d)
      (Avoids (definitionStops d.body.isOpen)) := by
  have plain : (Node.typeDefinition d).kind.nests = false := by
    rw [Node.kind]
    cases d.body.kind <;> rfl
  have inside := inside_of_plain plain nests
  simp only [nestingOf_append_le, nestingOf_cons_le] at inside
  obtain ⟨-, -, -, inside⟩ := inside
  obtain ⟨description, keyword, name, body⟩ := d
  simp only [TypeDefinition.isWellFormed, Bool.and_eq_true] at h
  obtain ⟨hd, hk, hn, hb⟩ := h
  cases body with
  | scalar directives =>
    exact typeDefinition_item (i := 2) rfl rfl hd hk hn fun h => scalarBody_reads h hb inside
  | object body =>
    exact typeDefinition_item (i := 4) rfl rfl hd hk hn
      fun h => (fieldedBody_reads h hb inside).onValue _
  | interface body =>
    exact typeDefinition_item (i := 6) rfl rfl hd hk hn
      fun h => (fieldedBody_reads h hb inside).onValue _
  | union directives members =>
    rw [TypeBody.isWellFormed, Bool.and_eq_true] at hb
    rw [TypeBody.outlines, nestingOf_append_le] at inside
    exact typeDefinition_item (i := 8) rfl rfl hd hk hn
      fun h => unionBody_reads h hb.1 hb.2 inside.1
  | enum directives values =>
    rw [TypeBody.isWellFormed, Bool.and_eq_true] at hb
    exact typeDefinition_item (i := 10) rfl rfl hd hk hn
      fun h => enumBody_reads h hb.1 hb.2 inside
  | input directives fields =>
    rw [TypeBody.isWellFormed, Bool.and_eq_true] at hb
    exact typeDefinition_item (i := 12) rfl rfl hd hk hn
      fun h => inputBody_reads h hb.1 hb.2 inside

theorem typeExtension_item {d : TypeExtension} {body : Chain Token ExtensionHead →
      Chain Token (ExtensionHead × TypeBody (Required Directives))}
    (ho : openings[i]? = some (extending d.body.kind.keyword))
    (hp : typeSystemAlternatives[i]? =
      some ((typeExtension d.body.kind code body).map .typeExtension))
    (he : d.extend.isName "extend" = true) (hk : d.keyword.isName d.body.kind.keyword = true)
    (hn : filled Token.isAnyName d.name = true)
    (reads : ∀ {chain : Chain Token ExtensionHead} {leaves v}, chain.Reads leaves v (Avoids []) →
      (body chain).Reads
        (leaves ++ tokensOf (d.body.outlines fun directives => [single Directives.outline directives]))
        (v, d.body) (Avoids stops)) :
    definition.ReadsItem (d.outline .definition).tokens (.typeExtension d) (Avoids stops) := by
  have takes := (typeExtension_takes .definition code he hk hn reads).map Definition.typeExtension
  have leaves : (d.outline .definition).tokens = d.extend :: d.keyword ::
      ((tokenSlot d.name).tokens ++
        tokensOf (d.body.outlines fun directives => [single Directives.outline directives])) := by
    simp [TypeExtension.outline]
  exact typeSystem_item ho hp takes (extending_stands he hk leaves)

theorem typeExtension_reads {d : TypeExtension} (h : d.isWellFormed = true)
    (nests : (d.outline .definition).nesting ≤ maxNesting) :
    definition.ReadsItem (d.outline .definition).tokens (.typeExtension d)
      (Avoids (definitionStops d.body.isOpen)) := by
  have plain : (Node.typeExtension d).kind.nests = false := by
    rw [Node.kind]
    cases d.body.kind <;> rfl
  have inside := inside_of_plain plain nests
  simp only [nestingOf_cons_le] at inside
  obtain ⟨-, -, -, inside⟩ := inside
  obtain ⟨extend, keyword, name, body⟩ := d
  simp only [TypeExtension.isWellFormed, Bool.and_eq_true] at h
  obtain ⟨he, hk, hn, hb⟩ := h
  cases body with
  | scalar directives =>
    rw [TypeBody.outlines, nestingOf_cons_le] at inside
    refine typeExtension_item (i := 3) rfl rfl he hk hn fun {chain leaves v} h => ?_
    rw [TypeBody.outlines, tokensOf_cons, tokensOf_nil, List.append_nil]
    exact scalarExtensionBody_reads h hb inside.1
  | object body =>
    exact typeExtension_item (i := 5) rfl rfl he hk hn
      fun h => (fieldedBody_reads h hb inside).onValue _
  | interface body =>
    exact typeExtension_item (i := 7) rfl rfl he hk hn
      fun h => (fieldedBody_reads h hb inside).onValue _
  | union directives members =>
    rw [TypeBody.isWellFormed, Bool.and_eq_true] at hb
    rw [TypeBody.outlines, nestingOf_append_le] at inside
    exact typeExtension_item (i := 9) rfl rfl he hk hn
      fun h => unionBody_reads h hb.1 hb.2 inside.1
  | enum directives values =>
    rw [TypeBody.isWellFormed, Bool.and_eq_true] at hb
    exact typeExtension_item (i := 11) rfl rfl he hk hn
      fun h => enumBody_reads h hb.1 hb.2 inside
  | input directives fields =>
    rw [TypeBody.isWellFormed, Bool.and_eq_true] at hb
    exact typeExtension_item (i := 13) rfl rfl he hk hn
      fun h => inputBody_reads h hb.1 hb.2 inside

end Types

theorem schema_reads {d : SchemaDefinition} (h : d.isWellFormed = true)
    (nests : (d.outline .definition).nesting ≤ maxNesting) :
    definition.ReadsItem (d.outline .definition).tokens (.schema d)
      (Avoids (definitionStops false)) := by
  have takes := ((schemaDefinition_takes .definition h nests).map Definition.schema).mono
    (List.nil_subset (definitionStops false))
  have leaves : (d.outline .definition).tokens = (d.description.elim [] fun t => [t]) ++
      d.keyword :: (tokensOf (optional Directives.outline d.directives) ++
        (single RootOperationTypes.outline d.roots).tokens) := by
    simp [SchemaDefinition.outline]
  simp only [SchemaDefinition.isWellFormed, Bool.and_eq_true] at h
  exact typeSystem_item (i := 0) rfl rfl takes (described_stands h.1 h.2.1 leaves)

theorem schemaExtension_reads {d : SchemaExtension} (h : d.isWellFormed = true)
    (nests : (d.outline .definition).nesting ≤ maxNesting) :
    definition.ReadsItem (d.outline .definition).tokens (.schemaExtension d)
      (Avoids (definitionStops d.roots.isNone)) := by
  have takes := (schemaExtension_takes .definition h nests).map Definition.schemaExtension
  have leaves : (d.outline .definition).tokens = d.extend :: d.keyword ::
      (tokensOf (optional Directives.outline d.directives) ++
        tokensOf (optional RootOperationTypes.outline d.roots)) := by
    simp [SchemaExtension.outline]
  simp only [SchemaExtension.isWellFormed, Bool.and_eq_true] at h
  exact typeSystem_item (i := 1) rfl rfl takes (extending_stands h.1 h.2.1 leaves)

theorem directiveDefinition_reads {d : DirectiveDefinition} (h : d.isWellFormed = true)
    (nests : (d.outline .definition).nesting ≤ maxNesting) :
    definition.ReadsItem (d.outline .definition).tokens (.directive d)
      (Avoids (definitionStops false)) := by
  have takes := (directiveDefinition_takes .definition h nests).map Definition.directive
  have leaves : (d.outline .definition).tokens = (d.description.elim [] fun t => [t]) ++
      d.keyword :: ((tokenSlot d.sign).tokens ++ ((tokenSlot d.name).tokens ++
        (tokensOf (optional InputValueDefinition.argumentsOutline d.arguments) ++
          (tokensOf (optionalToken d.repeatable) ++
            (single DirectiveLocation.listOutline d.locations).tokens)))) := by
    simp [DirectiveDefinition.outline]
  simp only [DirectiveDefinition.isWellFormed, Bool.and_eq_true] at h
  exact typeSystem_item (i := 14) rfl rfl takes (described_stands h.1 h.2.1 leaves)

theorem executable_item {d : Definition} (takes : executableDefinition.Takes [] leaves d) :
    definition.ReadsItem leaves d (Avoids (definitionStops false)) :=
  ((takes.alt_head [typeSystemDefinition]).mono (List.nil_subset _)).reads.item takes.some

theorem operation_reads {d : OperationDefinition} (h : d.isWellFormed = true)
    (nests : (d.outline .definition).nesting ≤ maxNesting) :
    definition.ReadsItem (d.outline .definition).tokens (.operation d)
      (Avoids (definitionStops false)) :=
  executable_item (((operationDefinition_takes .definition h nests).map _).alt_head _)

theorem fragment_reads {d : FragmentDefinition} (h : d.isWellFormed = true)
    (nests : (d.outline .definition).nesting ≤ maxNesting) :
    definition.ReadsItem (d.outline .definition).tokens (.fragment d)
      (Avoids (definitionStops false)) := by
  have takes := (fragmentDefinition_takes .definition h nests).map Definition.fragment
  refine executable_item (Parser.Takes.alt_cons (takes.alt_head []) fun rest hr => ?_)
  have begins := takes.begins (fragmentDefinition_guarded.map _).led hr
  exact (operationDefinition_guarded.map _).refuses _ (begins.avoids rfl)

/-- A definition is read as one of a document where nothing follows that it would take. -/
theorem definition_reads {d : Definition} (h : d.isWellFormed = true)
    (nests : (d.outline .definition).nesting ≤ maxNesting) :
    definition.ReadsItem (d.outline .definition).tokens d (Avoids (definitionStops d.isOpen)) := by
  cases d with
  | operation d => exact operation_reads h nests
  | fragment d => exact fragment_reads h nests
  | schema d => exact schema_reads h nests
  | schemaExtension d => exact schemaExtension_reads h nests
  | type d => exact type_reads h nests
  | typeExtension d => exact typeExtension_reads h nests
  | directive d => exact directiveDefinition_reads h nests

/-! ## Neighbours -/

/-- What definitions begin with. -/
def definitionLeads : List Lead := [executableLeads, (openings.map Opening.leads).flatten].flatten

theorem definition_guarded : definition.Guarded definitionLeads := by
  have guards : List.Forall₂ Parser.Guarded typeSystemAlternatives (openings.map Opening.leads) :=
    List.forall₂_map_right_iff.2 (typeSystem_opens.flip.imp fun _ _ h => h.guarded)
  exact Parser.alt_guarded (.cons executableDefinition_guarded
    (.cons (Parser.alt_guarded guards) .nil))

theorem keyword_begins {keyword : Token} {word : Text} (h : keyword.isName word = true) :
    Begins [.kind .name, .kind .string] (keyword :: rest) := by
  have named : (keyword.kind == .name) = true := (Bool.and_eq_true_iff.1 h).1
  exact begins_cons (l := .kind .name) (by simp) named

theorem described_begins {description : Option Token} {keyword : Token} {word : Text}
    (hd : description.all Token.isString = true) (hk : keyword.isName word = true) :
    Begins [.kind .name, .kind .string] ((description.elim [] fun t => [t]) ++ keyword :: rest) := by
  cases description with
  | none => exact keyword_begins hk
  | some t => exact begins_cons (l := .kind .string) (by simp) hd

/-- What is no selection set alone does not begin with a brace. -/
theorem begins_of_not_shorthand {d : Definition} (h : d.isWellFormed = true)
    (other : d.isShorthand = false) :
    Begins [.kind .name, .kind .string] ((d.outline .definition).tokens ++ rest) := by
  cases d with
  | operation d =>
    obtain ⟨type, name, vars, directives, set⟩ := d
    cases type with
    | none => cases other
    | some type =>
      simp only [Definition.isWellFormed, OperationDefinition.isWellFormed, Bool.and_eq_true] at h
      simp [Definition.outline, OperationDefinition.outline, OperationType.outline]
      exact keyword_begins h.2.1
  | fragment d =>
    simp only [Definition.isWellFormed, FragmentDefinition.isWellFormed, Bool.and_eq_true] at h
    simp [Definition.outline, FragmentDefinition.outline]
    exact keyword_begins h.1
  | schema d =>
    simp only [Definition.isWellFormed, SchemaDefinition.isWellFormed, Bool.and_eq_true] at h
    simp [Definition.outline, SchemaDefinition.outline]
    exact described_begins h.1 h.2.1
  | schemaExtension d =>
    simp only [Definition.isWellFormed, SchemaExtension.isWellFormed, Bool.and_eq_true] at h
    simp [Definition.outline, SchemaExtension.outline]
    exact keyword_begins h.1
  | type d =>
    simp only [Definition.isWellFormed, TypeDefinition.isWellFormed, Bool.and_eq_true] at h
    simp [Definition.outline, TypeDefinition.outline]
    exact described_begins h.1 h.2.1
  | typeExtension d =>
    simp only [Definition.isWellFormed, TypeExtension.isWellFormed, Bool.and_eq_true] at h
    simp [Definition.outline, TypeExtension.outline]
    exact keyword_begins h.1
  | directive d =>
    simp only [Definition.isWellFormed, DirectiveDefinition.isWellFormed, Bool.and_eq_true] at h
    simp [Definition.outline, DirectiveDefinition.outline]
    exact described_begins h.1 h.2.1

theorem definition_follows {d d' : Definition} (h : d'.isWellFormed = true)
    (nests : (d'.outline .definition).nesting ≤ maxNesting)
    (fit : Avoids (definitionStops d'.isOpen) rest)
    (apart : (d.isOpen && d'.isShorthand) = false) :
    Avoids (definitionStops d.isOpen) ((d'.outline .definition).tokens ++ rest) := by
  have begins := (definition_reads h nests).begins definition_guarded.led fit
  -- only a brace is both a start of definitions and something that a definition would take
  have closed : Avoids (definitionStops false) ((d'.outline .definition).tokens ++ rest) :=
    begins.avoids (by decide)
  cases isOpen : d.isOpen with
  | false => exact closed
  | true =>
    rw [isOpen, Bool.true_and] at apart
    have braceless : Avoids [.mark "\x7b"] ((d'.outline .definition).tokens ++ rest) :=
      (begins_of_not_shorthand h apart).avoids rfl
    exact avoids_append.2 ⟨closed.sub (by simp [definitionStops]), braceless⟩

/-- Before anything that no definition would take. -/
theorem definitions_fit_before {ds : List Definition} (h : ∀ d ∈ ds, d.isWellFormed = true)
    (nests : ∀ d ∈ ds, (d.outline .definition).nesting ≤ maxNesting)
    (apart : Definition.areApart ds = true) (last : Avoids (definitionStops true) rest) :
    Parser.Fits (fun d => (d.outline .definition).tokens)
      (fun d => Avoids (definitionStops d.isOpen)) ds rest := by
  induction ds with
  | nil => trivial
  | cons d ds ih =>
    rw [List.forall_mem_cons] at h nests
    rw [Definition.areApart, Bool.and_eq_true] at apart
    have later := ih h.2 nests.2 apart.2
    refine ⟨?_, later⟩
    cases ds with
    | nil =>
      refine last.sub ?_
      cases d.isOpen <;> simp [definitionStops]
    | cons d' ds =>
      rw [Bool.not_eq_true'] at apart
      rw [List.flatMap_cons, List.append_assoc]
      exact definition_follows (h.2 d' List.mem_cons_self) (nests.2 d' List.mem_cons_self) later.1
        apart.1

theorem definitions_fit {ds : List Definition} (h : ∀ d ∈ ds, d.isWellFormed = true)
    (nests : ∀ d ∈ ds, (d.outline .definition).nesting ≤ maxNesting)
    (apart : Definition.areApart ds = true) :
    Parser.Fits (fun d => (d.outline .definition).tokens)
      (fun d => Avoids (definitionStops d.isOpen)) ds [] :=
  definitions_fit_before h nests apart (avoids_nil _)

/-- What a well-formed document says of its definitions. -/
theorem definitions_of_isWellFormed {document : Document} (h : document.isWellFormed = true) :
    (∀ d ∈ document.definitions, d.isWellFormed = true) ∧
      (∀ d ∈ document.definitions, (d.outline .definition).nesting ≤ maxNesting) ∧
      Definition.areApart document.definitions = true := by
  simp only [Document.isWellFormed, Bool.and_eq_true, List.all_eq_true, decide_eq_true_iff] at h
  obtain ⟨wf, apart, nests⟩ := h
  have inside := inside_of_plain rfl nests
  rw [nestingOf_map_le] at inside
  exact ⟨wf, inside, apart⟩

end Production

open Production in
/-- Every well-formed document is read from its leaves, all of them and nothing else. -/
theorem document_complete (document : Document) (h : document.isWellFormed = true) :
    Production.document.parseAll document.outline.tokens.toArray = some (document, []) := by
  obtain ⟨ds⟩ := document
  simp only [Document.isWellFormed, Bool.and_eq_true, List.all_eq_true, decide_eq_true_iff] at h
  obtain ⟨wf, apart, nests⟩ := h
  have inside := inside_of_plain rfl nests
  rw [nestingOf_map_le] at inside
  rw [Document.outline, tokens_node, tokensOf_map]
  have items := Parser.many0_reads fun d hd => definition_reads (wf d hd) (inside d hd)
  have whole := items.map Document.mk
  refine whole.parseAll ⟨definitions_fit wf inside apart, ?_⟩
  exact definition_guarded.led.declines [] (avoids_nil _)

/-- An operation, an open type with a description, and an extension. -/
def sampleText : Text :=
  "query ($x: [Int!]) \x7b ...F ... \x7b a: b \x7d \x7d \"d\" type T extend enum E \x7b A \x7d"

set_option maxRecDepth 100000 in
theorem sample_complete :
    (parse 1 sampleText).tree.isWellFormed = true ∧
      (parse 1 sampleText).tree.definitions.length = 3 ∧
      Production.document.parseAll (parse 1 sampleText).tree.outline.tokens.toArray =
        some ((parse 1 sampleText).tree, []) := by
  have both : (parse 1 sampleText).tree.isWellFormed = true ∧
      (parse 1 sampleText).tree.definitions.length = 3 := by decide +kernel
  exact ⟨both.1, both.2, document_complete _ both.1⟩

end GraphQL
