import GraphQL.Production.TypeSystem
import GraphQL.Proofs.Production.Operation

/-! # Reading the type system

What a definition or extension would take for its own behind it, `definitionStops`, begins no other
definition, but for the brace of a definition whose body is lacking. -/

namespace GraphQL

set_option autoImplicit false

open Outline
open Recovery (Chain Cursor Parser)

@[simp] theorem tokens_description (t : Token) : (descriptionOutline t).tokens = [t] := by
  simp [descriptionOutline]

namespace Production

variable {α β δ : Type} {leaves : List Token} {leads : List Lead}

/-! ## Descriptions -/

theorem description_reads {description : Option Token}
    (h : description.all Token.isString = true) :
    stringToken.opt.Reads (description.elim [] fun t => [t]) description
      (Avoids [.kind .string]) := by
  cases description with
  | none =>
    exact (Parser.opt_lacking stringToken).mono fun rest hr => stringToken_guarded.led.declines rest hr
  | some t => exact (stringToken_takes h).reads.opt.mono fun rest _ => avoids_none rest

theorem described_reads {next : Parser Token α} {description : Option Token} {v : α}
    (hd : description.all Token.isString = true) (hn : next.Takes [] leaves v)
    (led : next.LedBy leads) (apart : Lead.allApart leads [.kind .string] = true) :
    ((Chain.of stringToken.opt).andRecognize next).Reads
      ((description.elim [] fun t => [t]) ++ leaves) (description, v) (Avoids []) :=
  Chain.of_andRecognize (description_reads hd) hn.reads hn.some
    fun _ hr => (hn.begins led hr).avoids apart

theorem described_unrecognized {next : Parser Token α} (h : next.Guarded leads) {c : Cursor Token}
    (hc : Avoids (.kind .string :: leads) c.ahead) :
    ((Chain.of stringToken.opt).andRecognize next).head c = false := by
  have hs : Avoids [.kind .string] c.ahead := hc.sub (by simp)
  have hn : Avoids leads c.ahead := hc.sub (by simp)
  show (stringToken.recognize c || next.recognize c) = false
  rw [stringToken_guarded.recognize c hs, h.recognize c hn, Bool.or_false]

/-! ## Input values and fields -/

theorem inputValueDefinition_takes {d : InputValueDefinition} (h : d.isWellFormed = true)
    (nests : d.outline.nesting ≤ maxNesting) :
    inputValueDefinition.Takes inputStops d.outline.tokens d := by
  simp only [InputValueDefinition.isWellFormed, Bool.and_eq_true] at h
  obtain ⟨hd, hn, hc, ht, hv, hs⟩ := h
  have inside := inside_of_plain rfl nests
  rw [nestingOf_append_le, nestingOf_cons_le] at inside
  have named := described_reads hd (name_takes hn) name_guarded.led rfl
  have whole := typed_reads named hc ht hv hs inside.2.2 .inputValueColon .inputValueType
  have leaves : d.outline.tokens = (d.description.elim [] fun t => [t]) ++ [d.name] ++
      tokensOf (tokenSlot d.colon :: single (TypeRef.outline .type) d.type ::
        (optional DefaultValue.outline d.default ++ optional Directives.outline d.directives)) := by
    simp [InputValueDefinition.outline]
  rw [leaves]
  exact whole.takes _

theorem inputValueDefinition_guarded :
    inputValueDefinition.Guarded [.kind .string, .kind .name] := by
  refine Chain.map_guarded (fun c hc => ?_) _
  exact described_unrecognized name_guarded hc

theorem argumentDefinitions_take {definitions : Delimited InputValueDefinition}
    (h : InputValueDefinition.argumentsAreWellFormed definitions = true)
    (nests : (InputValueDefinition.argumentsOutline definitions).nesting ≤ maxNesting) :
    argumentDefinitions.Takes [] (InputValueDefinition.argumentsOutline definitions).tokens
      definitions :=
  delimitedNode_takes rfl h nests _ inputValueDefinition_takes inputValueDefinition_guarded.led rfl rfl

theorem argumentDefinitions_guarded : argumentDefinitions.Guarded [.mark "("] :=
  delimited_guarded _ _ _ _

theorem inputFields_take {definitions : Delimited InputValueDefinition}
    (h : InputValueDefinition.fieldsAreWellFormed definitions = true)
    (nests : (InputValueDefinition.fieldsOutline definitions).nesting ≤ maxNesting) :
    inputFields.Takes [] (InputValueDefinition.fieldsOutline definitions).tokens definitions :=
  delimitedNode_takes rfl h nests _ inputValueDefinition_takes inputValueDefinition_guarded.led rfl rfl

theorem fieldDefinition_takes {d : FieldDefinition} (h : d.isWellFormed = true)
    (nests : d.outline.nesting ≤ maxNesting) :
    fieldDefinition.Takes inputStops d.outline.tokens d := by
  obtain ⟨description, name, arguments, colon, type, directives⟩ := d
  simp only [FieldDefinition.isWellFormed, Bool.and_eq_true] at h
  obtain ⟨hd, hn, ha, hc, ht, hs⟩ := h
  obtain ⟨colon, rfl, hc⟩ := exists_of_filled hc
  obtain ⟨type, rfl, ht⟩ := exists_of_filled ht
  have inside := inside_of_plain rfl nests
  simp only [nestingOf_append_le, nestingOf_cons_le, nestingOf_optional_le, nesting_present_le]
    at inside
  obtain ⟨-, -, na, -, nt, ns⟩ := inside
  rw [Option.all_eq_true] at ha
  have named := (described_reads hd (name_takes hn) name_guarded.led rfl).andOpt (o := arguments)
    (fun a hm => argumentDefinitions_take (ha a hm) (na a hm)) argumentDefinitions_guarded.led rfl
  have typed := (named.andSlot (punctuator_takes hc) (punctuator_guarded ":").led rfl
    .fieldDefinitionColon).andSlot (type_takes .type ht nt) (type_guarded maxNesting).led rfl
      .fieldDefinitionType
  have whole := andDirectives typed hs ns rfl
  have leaves : (FieldDefinition.outline ⟨description, name, arguments, .present colon,
      .present type, directives⟩).tokens = (description.elim [] fun t => [t]) ++ [name] ++
        (arguments.elim [] fun a => (InputValueDefinition.argumentsOutline a).tokens) ++ [colon] ++
          (type.outline .type).tokens ++
            directives.elim [] fun d => (Directives.outline d).tokens := by
    simp [FieldDefinition.outline]
  rw [leaves]
  exact (whole.takes _).mono (by simp [inputStops])

theorem fieldDefinition_guarded : fieldDefinition.Guarded [.kind .string, .kind .name] := by
  refine Chain.map_guarded (fun c hc => ?_) _
  exact described_unrecognized name_guarded hc

theorem fieldDefinitions_take {definitions : Delimited FieldDefinition}
    (h : FieldDefinition.listIsWellFormed definitions = true)
    (nests : (FieldDefinition.listOutline definitions).nesting ≤ maxNesting) :
    fieldDefinitions.Takes [] (FieldDefinition.listOutline definitions).tokens definitions :=
  delimitedNode_takes rfl h nests _ fieldDefinition_takes fieldDefinition_guarded.led rfl rfl

/-! ## Interfaces, members and enum values -/

theorem namedTypes_take {intro : Parser Token Token} {isIntro : Token → Bool} {mark : Text}
    {members : MemberList NamedType}
    (h : members.isWellFormed isIntro (·.isPunctuator mark) NamedType.isWellFormed = true)
    (intros : ∀ t, isIntro t = true → intro.Takes [] [t] t) (first next : SyntaxCode) :
    (memberList intro (punctuator mark) namedType first next).Takes [.mark mark]
      (tokensOf (Outline.members (NamedType.outline .plain) members)) members := by
  refine memberList_takes h first next intros (fun type wf => ?_) namedType_guarded.led rfl
  have leaves : (NamedType.outline .plain type).tokens = [type.name] := by simp [NamedType.outline]
  rw [leaves]
  exact namedType_takes wf

theorem interfaces_take {list : MemberList NamedType} (h : interfacesAreWellFormed list = true) :
    interfaces.Takes [.mark "&"] (interfacesOutline list).tokens list := by
  rw [interfacesOutline, tokens_node]
  exact namedTypes_take h (fun _ => keyword_takes) _ _

theorem interfaces_guarded : interfaces.Guarded [.word "implements"] :=
  memberList_guarded (keyword_guarded "implements") _ _ _ _

theorem unionMembers_take {list : MemberList NamedType} (h : unionMembersAreWellFormed list = true) :
    unionMembers.Takes [.mark "|"] (unionMembersOutline list).tokens list := by
  rw [unionMembersOutline, tokens_node]
  exact namedTypes_take h (fun _ => punctuator_takes) _ _

theorem unionMembers_guarded : unionMembers.Guarded [.mark "="] :=
  memberList_guarded (punctuator_guarded "=") _ _ _ _

theorem enumValueDefinition_takes {d : EnumValueDefinition} (h : d.isWellFormed = true)
    (nests : d.outline.nesting ≤ maxNesting) :
    enumValueDefinition.Takes [.mark "@", .mark "("] d.outline.tokens d := by
  obtain ⟨description, value, directives⟩ := d
  simp only [EnumValueDefinition.isWellFormed, Bool.and_eq_true] at h
  obtain ⟨hd, hv, hs⟩ := h
  have inside := inside_of_plain rfl nests
  simp only [nestingOf_append_le, nestingOf_cons_le, nestingOf_optional_le] at inside
  have valued := described_reads hd (nameExcept_takes hv) (nameExcept_guarded _).led rfl
  have whole := andDirectives valued hs inside.2.2 rfl
  have leaves : (EnumValueDefinition.outline ⟨description, value, directives⟩).tokens =
      (description.elim [] fun t => [t]) ++ [value] ++
        directives.elim [] fun d => (Directives.outline d).tokens := by
    simp [EnumValueDefinition.outline, Value.outline]
  rw [leaves]
  exact whole.takes _

theorem enumValueDefinition_guarded : enumValueDefinition.Guarded [.kind .string, .kind .name] := by
  refine Chain.map_guarded (fun c hc => ?_) _
  exact described_unrecognized (nameExcept_guarded _) hc

theorem enumValues_take {definitions : Delimited EnumValueDefinition}
    (h : EnumValueDefinition.listIsWellFormed definitions = true)
    (nests : (EnumValueDefinition.listOutline definitions).nesting ≤ maxNesting) :
    enumValues.Takes [] (EnumValueDefinition.listOutline definitions).tokens definitions :=
  delimitedNode_takes rfl h nests _ enumValueDefinition_takes enumValueDefinition_guarded.led rfl rfl

/-! ## Bodies -/

/-- What a definition would take for its own behind it. -/
def definitionStops (isOpen : Bool) : List Lead :=
  [.word "implements", .mark "&", .mark "@", .mark "(", .mark "=", .mark "|"] ++
    if isOpen then [.mark "\x7b"] else []

section Bodies

variable {chain : Chain Token α} {v : α}

/-- A body in braces behind the other parts of a definition. -/
theorem andBraces {stops : List Lead} (h : chain.Reads leaves v (Avoids stops))
    (sub : stops ⊆ definitionStops false) {braces : Parser Token β} {item : Option β}
    {outline : β → Outline} (hb : ∀ b ∈ item, braces.Takes [] (outline b).tokens b)
    (guarded : braces.Guarded [.mark "\x7b"])
    (apart : Lead.allApart [.mark "\x7b"] stops = true) :
    (chain.and braces.opt).Reads (leaves ++ tokensOf (optional outline item)) (v, item)
      (Avoids (definitionStops item.isNone)) := by
  rw [tokensOf_optional]
  cases item with
  | none =>
    have whole := h.andOpt (o := none) (f := fun b => (outline b).tokens) hb guarded.led apart
    refine whole.mono fun rest hr => hr.sub ?_
    rw [List.append_nil]
    exact List.append_subset.2 ⟨List.Subset.trans sub (by simp [definitionStops]),
      by simp [definitionStops]⟩
  | some b =>
    exact (h.andThere (hb b rfl) guarded.led apart).mono fun rest _ => avoids_none rest

variable (h : chain.Reads leaves v (Avoids []))

include h

theorem fieldedBody_reads {body : FieldedBody} (wf : body.isWellFormed = true)
    (nests : nestingOf body.outlines ≤ maxNesting) :
    (fieldedBody chain).Reads (leaves ++ tokensOf body.outlines) (v, body)
      (Avoids (definitionStops body.fields.isNone)) := by
  obtain ⟨list, directives, fields⟩ := body
  simp only [FieldedBody.isWellFormed, Bool.and_eq_true] at wf
  obtain ⟨hi, hd, hf⟩ := wf
  simp only [FieldedBody.outlines, nestingOf_append_le, nestingOf_optional_le] at nests
  obtain ⟨-, nd, nf⟩ := nests
  rw [Option.all_eq_true] at hi hf
  have listed := h.andOpt (o := list) (fun i hm => interfaces_take (hi i hm))
    interfaces_guarded.led rfl
  have whole := andBraces (andDirectives listed hd nd rfl) (by simp [definitionStops])
    (fun f hm => fieldDefinitions_take (hf f hm) (nf f hm)) (delimited_guarded _ _ _ _) rfl
  have leaves : tokensOf (FieldedBody.outlines ⟨list, directives, fields⟩) =
      (list.elim [] fun i => (interfacesOutline i).tokens) ++
        ((directives.elim [] fun d => (Directives.outline d).tokens) ++
          tokensOf (optional FieldDefinition.listOutline fields)) := by
    simp [FieldedBody.outlines]
  rw [leaves, ← List.append_assoc, ← List.append_assoc]
  exact whole.onValue _

variable {directives : Option Directives}

theorem scalarBody_reads (hd : directives.all Directives.isWellFormed = true)
    (nests : nestingOf (optional Directives.outline directives) ≤ maxNesting) :
    (scalarBody chain).Reads (leaves ++ tokensOf (optional Directives.outline directives))
      (v, .scalar directives) (Avoids (definitionStops false)) := by
  rw [nestingOf_optional_le] at nests
  rw [tokensOf_optional]
  have whole := andDirectives h hd nests rfl
  exact (whole.onValue _).mono fun rest hr => hr.sub (by simp [definitionStops])

theorem scalarExtensionBody_reads {directives : Required Directives}
    (hd : filled Directives.isWellFormed directives = true)
    (nests : (single Directives.outline directives).nesting ≤ maxNesting) :
    (scalarExtensionBody chain).Reads (leaves ++ (single Directives.outline directives).tokens)
      (v, .scalar directives) (Avoids (definitionStops false)) := by
  obtain ⟨directives, rfl, hd⟩ := exists_of_filled hd
  rw [nesting_present_le] at nests
  rw [tokens_present]
  have whole := h.andSlot (directives_take hd nests) (directives_led maxNesting) rfl
    .scalarExtensionDirectives
  exact (whole.onValue _).mono fun rest hr => hr.sub (by simp [definitionStops])

theorem unionBody_reads {members : Option (MemberList NamedType)}
    (hd : directives.all Directives.isWellFormed = true)
    (hm : members.all unionMembersAreWellFormed = true)
    (nests : nestingOf (optional Directives.outline directives) ≤ maxNesting) :
    (unionBody chain : Chain Token (α × TypeBody δ)).Reads
      (leaves ++ tokensOf (optional Directives.outline directives ++
        optional unionMembersOutline members))
      (v, .union directives members) (Avoids (definitionStops false)) := by
  rw [nestingOf_optional_le] at nests
  rw [Option.all_eq_true] at hm
  rw [tokensOf_append, tokensOf_optional, tokensOf_optional, ← List.append_assoc]
  have whole := (andDirectives h hd nests rfl).andOpt (o := members)
    (fun m hx => unionMembers_take (hm m hx)) unionMembers_guarded.led rfl
  exact (whole.onValue _).mono fun rest hr => hr.sub (by simp [definitionStops])

theorem enumBody_reads {values : Option (Delimited EnumValueDefinition)}
    (hd : directives.all Directives.isWellFormed = true)
    (hv : values.all EnumValueDefinition.listIsWellFormed = true)
    (nests : nestingOf (optional Directives.outline directives ++
      optional EnumValueDefinition.listOutline values) ≤ maxNesting) :
    (enumBody chain : Chain Token (α × TypeBody δ)).Reads
      (leaves ++ tokensOf (optional Directives.outline directives ++
        optional EnumValueDefinition.listOutline values))
      (v, .enum directives values) (Avoids (definitionStops values.isNone)) := by
  simp only [nestingOf_append_le, nestingOf_optional_le] at nests
  rw [Option.all_eq_true] at hv
  rw [tokensOf_append, tokensOf_optional Directives.outline, ← List.append_assoc]
  exact (andBraces (andDirectives h hd nests.1 rfl) (by simp [definitionStops])
    (fun e hx => enumValues_take (hv e hx) (nests.2 e hx)) (delimited_guarded _ _ _ _) rfl).onValue _

theorem inputBody_reads {fields : Option (Delimited InputValueDefinition)}
    (hd : directives.all Directives.isWellFormed = true)
    (hf : fields.all InputValueDefinition.fieldsAreWellFormed = true)
    (nests : nestingOf (optional Directives.outline directives ++
      optional InputValueDefinition.fieldsOutline fields) ≤ maxNesting) :
    (inputBody chain : Chain Token (α × TypeBody δ)).Reads
      (leaves ++ tokensOf (optional Directives.outline directives ++
        optional InputValueDefinition.fieldsOutline fields))
      (v, .input directives fields) (Avoids (definitionStops fields.isNone)) := by
  simp only [nestingOf_append_le, nestingOf_optional_le] at nests
  rw [Option.all_eq_true] at hf
  rw [tokensOf_append, tokensOf_optional Directives.outline, ← List.append_assoc]
  exact (andBraces (andDirectives h hd nests.1 rfl) (by simp [definitionStops])
    (fun f hx => inputFields_take (hf f hx) (nests.2 f hx)) (delimited_guarded _ _ _ _) rfl).onValue _

end Bodies

/-! ## Types -/

theorem introduced_reads {description : Option Token} {keyword : Token} {word : Text}
    (hd : description.all Token.isString = true) (hk : keyword.isName word = true) :
    (introduced word).Reads ((description.elim [] fun t => [t]) ++ [keyword])
      (description, keyword) (Avoids []) :=
  described_reads hd (keyword_takes hk) (keyword_guarded word).led rfl

theorem typeDefinition_takes {d : TypeDefinition} (role : Role) (code : SyntaxCode)
    {body : Chain Token DefinitionHead →
      Chain Token (DefinitionHead × TypeBody (Option Directives))} {stops : List Lead}
    (hd : d.description.all Token.isString = true)
    (hk : d.keyword.isName d.body.kind.keyword = true)
    (hn : filled Token.isAnyName d.name = true)
    (reads : ∀ {chain : Chain Token DefinitionHead} {leaves v}, chain.Reads leaves v (Avoids []) →
      (body chain).Reads (leaves ++ tokensOf (d.body.outlines (optional Directives.outline)))
        (v, d.body) (Avoids stops)) :
    (typeDefinition d.body.kind code body).Takes stops (d.outline role).tokens d := by
  obtain ⟨description, keyword, name, value⟩ := d
  obtain ⟨name, rfl, hn⟩ := exists_of_filled hn
  have named := (introduced_reads hd hk).andSlot (name_takes hn) name_guarded.led rfl code
  have leaves : (TypeDefinition.outline role ⟨description, keyword, .present name, value⟩).tokens =
      (description.elim [] fun t => [t]) ++ [keyword] ++ [name] ++
        tokensOf (value.outlines (optional Directives.outline)) := by
    simp [TypeDefinition.outline]
  rw [leaves]
  exact (reads named).takes _

theorem typeExtension_takes {d : TypeExtension} (role : Role) (code : SyntaxCode)
    {body : Chain Token ExtensionHead →
      Chain Token (ExtensionHead × TypeBody (Required Directives))} {stops : List Lead}
    (he : d.extend.isName "extend" = true) (hk : d.keyword.isName d.body.kind.keyword = true)
    (hn : filled Token.isAnyName d.name = true)
    (reads : ∀ {chain : Chain Token ExtensionHead} {leaves v}, chain.Reads leaves v (Avoids []) →
      (body chain).Reads
        (leaves ++ tokensOf (d.body.outlines fun directives => [single Directives.outline directives]))
        (v, d.body) (Avoids stops)) :
    (typeExtension d.body.kind code body).Takes stops (d.outline role).tokens d := by
  obtain ⟨extend, keyword, name, value⟩ := d
  obtain ⟨name, rfl, hn⟩ := exists_of_filled hn
  have named := (Chain.of_takes (extension_takes he hk)).andSlot (name_takes hn) name_guarded.led rfl
    code
  have leaves : (TypeExtension.outline role ⟨extend, keyword, .present name, value⟩).tokens =
      [extend, keyword] ++ [name] ++
        tokensOf (value.outlines fun directives => [single Directives.outline directives]) := by
    simp [TypeExtension.outline]
  rw [leaves]
  exact (reads named).takes _

/-! ## Schemas -/

theorem rootOperationType_takes {root : RootOperationType} (h : root.isWellFormed = true) :
    rootOperationType.Takes [] root.outline.tokens root := by
  obtain ⟨operation, colon, type⟩ := root
  simp only [RootOperationType.isWellFormed, Bool.and_eq_true] at h
  obtain ⟨ho, hc, ht⟩ := h
  obtain ⟨colon, rfl, hc⟩ := exists_of_filled hc
  obtain ⟨type, rfl, ht⟩ := exists_of_filled ht
  have whole := ((Chain.of_takes (operationType_takes ho)).andSlot (punctuator_takes hc)
    (punctuator_guarded ":").led rfl .rootTypeColon).andSlot (namedType_takes ht)
      namedType_guarded.led rfl .rootTypeName
  have leaves : (RootOperationType.outline ⟨operation, .present colon, .present type⟩).tokens =
      [operation.keyword] ++ [colon] ++ [type.name] := by
    simp [RootOperationType.outline, OperationType.outline, NamedType.outline]
  rw [leaves]
  exact whole.takes _

theorem rootOperationType_guarded : rootOperationType.Guarded operationLeads :=
  Chain.map_guarded operationType_guarded.recognize _

theorem rootOperationTypes_take {roots : RootOperationTypes} (h : roots.isWellFormed = true) :
    rootOperationTypes.Takes [] roots.outline.tokens roots := by
  obtain ⟨opening, entries, closing⟩ := roots
  simp only [RootOperationTypes.isWellFormed, Bool.and_eq_true] at h
  obtain ⟨ho, he, hc⟩ := h
  obtain ⟨entries, rfl, he⟩ := exists_of_filled he
  obtain ⟨closing, rfl, hc⟩ := exists_of_filled hc
  simp only [filled, Bool.and_eq_true, List.all_eq_true] at he
  have some : entries ≠ [] := by
    intro none
    rw [none] at he
    cases he.1
  have many := many1_takes (fun root hr => rootOperationType_takes (he.2 root hr))
    rootOperationType_guarded.led (Lead.allApart_nil _) some
  have inner := (Chain.of_takes (punctuator_takes ho)).andSlot many
    rootOperationType_guarded.led.many1 (Lead.allApart_nil _) .rootTypes
  have whole := closing_reads inner hc rfl fun left => unclosed .rootTypesClosing left.1
  have leaves : (RootOperationTypes.outline ⟨opening, .present entries, .present closing⟩).tokens =
      [opening] ++ (entries.flatMap fun root => root.outline.tokens) ++ [closing] := by
    simp [RootOperationTypes.outline, slot, tokens]
  rw [leaves]
  exact whole.takes _

theorem rootOperationTypes_guarded : rootOperationTypes.Guarded [.mark "\x7b"] :=
  Chain.map_guarded (punctuator_guarded "\x7b").recognize _

theorem schemaDefinition_takes {d : SchemaDefinition} (role : Role) (h : d.isWellFormed = true)
    (nests : (d.outline role).nesting ≤ maxNesting) :
    schemaDefinition.Takes [] (d.outline role).tokens d := by
  obtain ⟨description, keyword, directives, roots⟩ := d
  simp only [SchemaDefinition.isWellFormed, Bool.and_eq_true] at h
  obtain ⟨hd, hk, hs, hr⟩ := h
  obtain ⟨roots, rfl, hr⟩ := exists_of_filled hr
  have inside := inside_of_plain rfl nests
  simp only [nestingOf_append_le, nestingOf_cons_le, nestingOf_optional_le] at inside
  have whole := (andDirectives (introduced_reads hd hk) hs inside.2.2.1 rfl).andSlot
    (rootOperationTypes_take hr) rootOperationTypes_guarded.led rfl .schemaRootTypes
  have leaves : (SchemaDefinition.outline role ⟨description, keyword, directives,
      .present roots⟩).tokens = (description.elim [] fun t => [t]) ++ [keyword] ++
        (directives.elim [] fun d => (Directives.outline d).tokens) ++ roots.outline.tokens := by
    simp [SchemaDefinition.outline]
  rw [leaves]
  exact whole.takes _

theorem schemaExtension_takes {d : SchemaExtension} (role : Role) (h : d.isWellFormed = true)
    (nests : (d.outline role).nesting ≤ maxNesting) :
    schemaExtension.Takes (definitionStops d.roots.isNone) (d.outline role).tokens d := by
  obtain ⟨extend, keyword, directives, roots⟩ := d
  simp only [SchemaExtension.isWellFormed, Bool.and_eq_true, Option.all_eq_true] at h
  obtain ⟨he, hk, hs, hr⟩ := h
  have inside := inside_of_plain rfl nests
  simp only [nestingOf_append_le, nestingOf_cons_le, nestingOf_optional_le] at inside
  have directed := andDirectives (Chain.of_takes (extension_takes he hk))
    ((Option.all_eq_true _ _).2 hs) inside.2.2.1 rfl
  have whole := andBraces directed (by simp [definitionStops])
    (fun r hm => rootOperationTypes_take (hr r hm)) rootOperationTypes_guarded rfl
  have leaves : (SchemaExtension.outline role ⟨extend, keyword, directives, roots⟩).tokens =
      [extend, keyword] ++ (directives.elim [] fun d => (Directives.outline d).tokens) ++
        tokensOf (optional RootOperationTypes.outline roots) := by
    simp [SchemaExtension.outline]
  rw [leaves]
  exact whole.takes _

/-! ## Directives -/

theorem directiveLocation_takes {location : DirectiveLocation}
    (h : location.isWellFormed = true) :
    directiveLocation.Takes [] location.outline.tokens location := by
  have leaves : location.outline.tokens = [location.name] := by simp [DirectiveLocation.outline]
  rw [leaves]
  exact Parser.token_takes (if_pos h)

theorem directiveLocation_guarded : directiveLocation.Guarded [.kind .name] := by
  refine Parser.token_guarded fun t ht => if_neg ?_
  rw [show (t.kind == .name) = false from ht _ List.mem_cons_self, Bool.false_and]
  exact Bool.false_ne_true

theorem directiveLocations_take {list : MemberList DirectiveLocation}
    (h : DirectiveLocation.listIsWellFormed list = true) :
    directiveLocations.Takes [.mark "|"] (DirectiveLocation.listOutline list).tokens list := by
  rw [DirectiveLocation.listOutline, tokens_node]
  exact memberList_takes h _ _ (fun _ => keyword_takes) (fun _ => directiveLocation_takes)
    directiveLocation_guarded.led rfl

theorem directiveLocations_guarded : directiveLocations.Guarded [.word "on"] :=
  memberList_guarded (keyword_guarded "on") _ _ _ _

theorem directiveDefinition_takes {d : DirectiveDefinition} (role : Role)
    (h : d.isWellFormed = true) (nests : (d.outline role).nesting ≤ maxNesting) :
    directiveDefinition.Takes (definitionStops false) (d.outline role).tokens d := by
  obtain ⟨description, keyword, sign, name, arguments, repeatable, locations⟩ := d
  simp only [DirectiveDefinition.isWellFormed, Bool.and_eq_true] at h
  obtain ⟨hd, hk, hs, hn, ha, hr, hl⟩ := h
  obtain ⟨sign, rfl, hs⟩ := exists_of_filled hs
  obtain ⟨name, rfl, hn⟩ := exists_of_filled hn
  obtain ⟨locations, rfl, hl⟩ := exists_of_filled hl
  have inside := inside_of_plain rfl nests
  simp only [nestingOf_append_le, nestingOf_cons_le, nestingOf_optional_le] at inside
  rw [Option.all_eq_true] at ha hr
  have named := ((introduced_reads hd hk).andSlot (punctuator_takes hs) (punctuator_guarded "@").led
    rfl .directiveSign).andSlot (nameExcept_takes hn) (nameExcept_guarded _).led rfl
      .directiveDefinitionName
  have taken := named.andOpt (o := arguments)
    (fun a hm => argumentDefinitions_take (ha a hm) (inside.2.2.2.2.1 a hm))
    argumentDefinitions_guarded.led rfl
  have repeated := taken.andOpt (o := repeatable) (fun t hm => keyword_takes (hr t hm))
    (keyword_guarded "repeatable").led rfl
  have whole := repeated.andSlot (directiveLocations_take hl) directiveLocations_guarded.led rfl
    .directiveLocations
  have leaves : (DirectiveDefinition.outline role ⟨description, keyword, .present sign,
      .present name, arguments, repeatable, .present locations⟩).tokens =
      (description.elim [] fun t => [t]) ++ [keyword] ++ [sign] ++ [name] ++
        (arguments.elim [] fun a => (InputValueDefinition.argumentsOutline a).tokens) ++
          (repeatable.elim [] fun t => [t]) ++ (DirectiveLocation.listOutline locations).tokens := by
    simp [DirectiveDefinition.outline]
  rw [leaves]
  exact (whole.takes _).mono (by simp [definitionStops])

end Production

end GraphQL
