import GraphQL.Production.Document
import GraphQL.Proofs.Relocation.Operation

/-! # The type system at another place

The productions of the type system are equivariant too, and with them `definition`. -/

namespace GraphQL.Production

set_option autoImplicit false

open Recovery (Chain Parser)

variable {α β δ : Type} {m : Relocation} {f : α → α} {g : β → β} {s : δ → δ}

theorem introduced_equivariant {word : Text} :
    (introduced word).Equivariant m
      (Prod.map (Option.map (Token.mapSpans m.place)) (Token.mapSpans m.place)) :=
  Chain.opt_andRecognize_equivariant stringToken_equivariant keyword_equivariant keyword_consumes

/-- A name, perhaps behind a description. -/
theorem described_equivariant {named : Parser Token Token}
    (hn : named.Equivariant m (Token.mapSpans m.place)) (some : named.Consumes) :
    ((Chain.of stringToken.opt).andRecognize named).Equivariant m
      (Prod.map (Option.map (Token.mapSpans m.place)) (Token.mapSpans m.place)) :=
  Chain.opt_andRecognize_equivariant stringToken_equivariant hn some

/-! ## Schemas -/

theorem rootOperationType_equivariant :
    rootOperationType.Equivariant m (RootOperationType.mapSpans m.place) :=
  (andSlot_equivariant (andSlot_equivariant operationType_chain punctuator_equivariant)
    namedType_equivariant).map fun _ => rfl

theorem rootOperationTypes_equivariant :
    rootOperationTypes.Equivariant m (RootOperationTypes.mapSpans m.place) :=
  ((andSlot_equivariant punctuator_chain rootOperationType_equivariant.many1).andRecover
    punctuator_equivariant fun _ => rfl).map fun _ => rfl

theorem schemaDefinition_equivariant :
    schemaDefinition.Equivariant m (SchemaDefinition.mapSpans m.place) :=
  (andSlot_equivariant (introduced_equivariant.and directives_equivariant.opt)
    rootOperationTypes_equivariant).map fun _ => rfl

theorem extension_chain {word : Text} :
    (Chain.of (extension word)).Equivariant m
      (Prod.map (Token.mapSpans m.place) (Token.mapSpans m.place)) :=
  Chain.of_equivariant extension_equivariant extension_consumes

theorem schemaExtension_equivariant :
    schemaExtension.Equivariant m (SchemaExtension.mapSpans m.place) :=
  ((extension_chain.and directives_equivariant.opt).and rootOperationTypes_equivariant.opt).map
    fun _ => rfl

/-! ## Input values and fields -/

theorem inputValueDefinition_equivariant :
    inputValueDefinition.Equivariant m (InputValueDefinition.mapSpans m.place) :=
  (((andSlot_equivariant (andSlot_equivariant (described_equivariant name_equivariant name_consumes)
    punctuator_equivariant) type_equivariant).and defaultValue_equivariant.opt).and
    directives_equivariant.opt).map fun _ => rfl

theorem argumentDefinitions_equivariant :
    argumentDefinitions.Equivariant m
      (Delimited.mapSpans m.place (InputValueDefinition.mapSpans m.place)) :=
  delimited_equivariant inputValueDefinition_equivariant

theorem fieldDefinition_equivariant :
    fieldDefinition.Equivariant m (FieldDefinition.mapSpans m.place) :=
  ((andSlot_equivariant (andSlot_equivariant ((described_equivariant name_equivariant
    name_consumes).and argumentDefinitions_equivariant.opt) punctuator_equivariant)
    type_equivariant).and directives_equivariant.opt).map fun _ => rfl

theorem fieldDefinitions_equivariant :
    fieldDefinitions.Equivariant m
      (Delimited.mapSpans m.place (FieldDefinition.mapSpans m.place)) :=
  delimited_equivariant fieldDefinition_equivariant

theorem inputFields_equivariant :
    inputFields.Equivariant m
      (Delimited.mapSpans m.place (InputValueDefinition.mapSpans m.place)) :=
  delimited_equivariant inputValueDefinition_equivariant

/-! ## Interfaces, members and enum values -/

theorem interfaces_equivariant :
    interfaces.Equivariant m (MemberList.mapSpans m.place (NamedType.mapSpans m.place)) :=
  memberList_equivariant keyword_chain punctuator_chain namedType_equivariant

theorem unionMembers_equivariant :
    unionMembers.Equivariant m (MemberList.mapSpans m.place (NamedType.mapSpans m.place)) :=
  memberList_equivariant punctuator_chain punctuator_chain namedType_equivariant

theorem enumValueDefinition_equivariant :
    enumValueDefinition.Equivariant m (EnumValueDefinition.mapSpans m.place) :=
  ((described_equivariant enumName_equivariant Parser.token_consumes).and
    directives_equivariant.opt).map fun _ => rfl

theorem enumValues_equivariant :
    enumValues.Equivariant m (Delimited.mapSpans m.place (EnumValueDefinition.mapSpans m.place)) :=
  delimited_equivariant enumValueDefinition_equivariant

/-! ## Bodies -/

section Bodies

variable {chain : Chain Token α} (hc : chain.Equivariant m f)

include hc

theorem scalarBody_equivariant :
    (scalarBody chain).Equivariant m
      (Prod.map f (TypeBody.mapSpans m.place (Option.map (Directives.mapSpans m.place)))) :=
  (hc.and directives_equivariant.opt).onValue fun _ => rfl

theorem scalarExtensionBody_equivariant :
    (scalarExtensionBody chain).Equivariant m
      (Prod.map f (TypeBody.mapSpans m.place (mapSlot m.place (Directives.mapSpans m.place)))) :=
  (andSlot_equivariant hc directives_equivariant).onValue fun _ => rfl

theorem fieldedBody_equivariant :
    (fieldedBody chain).Equivariant m (Prod.map f (FieldedBody.mapSpans m.place)) :=
  (((hc.and interfaces_equivariant.opt).and directives_equivariant.opt).and
    fieldDefinitions_equivariant.opt).onValue fun _ => rfl

theorem objectBody_equivariant :
    (objectBody chain).Equivariant m (Prod.map f (TypeBody.mapSpans m.place s)) :=
  (fieldedBody_equivariant hc).onValue fun _ => rfl

theorem interfaceBody_equivariant :
    (interfaceBody chain).Equivariant m (Prod.map f (TypeBody.mapSpans m.place s)) :=
  (fieldedBody_equivariant hc).onValue fun _ => rfl

theorem unionBody_equivariant :
    (unionBody chain).Equivariant m (Prod.map f (TypeBody.mapSpans m.place s)) :=
  ((hc.and directives_equivariant.opt).and unionMembers_equivariant.opt).onValue fun _ => rfl

theorem enumBody_equivariant :
    (enumBody chain).Equivariant m (Prod.map f (TypeBody.mapSpans m.place s)) :=
  ((hc.and directives_equivariant.opt).and enumValues_equivariant.opt).onValue fun _ => rfl

theorem inputBody_equivariant :
    (inputBody chain).Equivariant m (Prod.map f (TypeBody.mapSpans m.place s)) :=
  ((hc.and directives_equivariant.opt).and inputFields_equivariant.opt).onValue fun _ => rfl

end Bodies

/-! ## Types and directives -/

theorem typeDefinition_equivariant {kind : TypeKind} {code : SyntaxCode}
    {body : Chain Token DefinitionHead →
      Chain Token (DefinitionHead × TypeBody (Option Directives))}
    (hb : ∀ {chain h}, Chain.Equivariant m h chain → (body chain).Equivariant m
      (Prod.map h (TypeBody.mapSpans m.place (Option.map (Directives.mapSpans m.place))))) :
    (typeDefinition kind code body).Equivariant m (TypeDefinition.mapSpans m.place) :=
  (hb (andSlot_equivariant introduced_equivariant name_equivariant)).map fun _ => rfl

theorem typeExtension_equivariant {kind : TypeKind} {code : SyntaxCode}
    {body : Chain Token ExtensionHead →
      Chain Token (ExtensionHead × TypeBody (Required Directives))}
    (hb : ∀ {chain h}, Chain.Equivariant m h chain → (body chain).Equivariant m
      (Prod.map h (TypeBody.mapSpans m.place (mapSlot m.place (Directives.mapSpans m.place))))) :
    (typeExtension kind code body).Equivariant m (TypeExtension.mapSpans m.place) :=
  (hb (andSlot_equivariant extension_chain name_equivariant)).map fun _ => rfl

theorem directiveLocation_equivariant :
    directiveLocation.Equivariant m (DirectiveLocation.mapSpans m.place) :=
  Parser.token_equivariant fun t => by
    show (if t.kind == .name && DirectiveLocation.names.contains t.text then _ else none) = _
    split <;> rfl

theorem directiveLocations_equivariant :
    directiveLocations.Equivariant m
      (MemberList.mapSpans m.place (DirectiveLocation.mapSpans m.place)) :=
  memberList_equivariant keyword_chain punctuator_chain directiveLocation_equivariant

theorem directiveDefinition_equivariant :
    directiveDefinition.Equivariant m (DirectiveDefinition.mapSpans m.place) :=
  (andSlot_equivariant (((andSlot_equivariant (andSlot_equivariant introduced_equivariant
    punctuator_equivariant) nameExcept_equivariant).and argumentDefinitions_equivariant.opt).and
    keyword_equivariant.opt) directiveLocations_equivariant).map fun _ => rfl

/-! ## Definitions -/

theorem typeSystemDefinition_equivariant :
    typeSystemDefinition.Equivariant m (Definition.mapSpans m.place) := by
  refine Parser.alt_equivariant ?_
  simp only [List.forall_mem_cons]
  exact ⟨schemaDefinition_equivariant.map fun _ => rfl,
    schemaExtension_equivariant.map fun _ => rfl,
    (typeDefinition_equivariant scalarBody_equivariant).map fun _ => rfl,
    (typeExtension_equivariant scalarExtensionBody_equivariant).map fun _ => rfl,
    (typeDefinition_equivariant objectBody_equivariant).map fun _ => rfl,
    (typeExtension_equivariant objectBody_equivariant).map fun _ => rfl,
    (typeDefinition_equivariant interfaceBody_equivariant).map fun _ => rfl,
    (typeExtension_equivariant interfaceBody_equivariant).map fun _ => rfl,
    (typeDefinition_equivariant unionBody_equivariant).map fun _ => rfl,
    (typeExtension_equivariant unionBody_equivariant).map fun _ => rfl,
    (typeDefinition_equivariant enumBody_equivariant).map fun _ => rfl,
    (typeExtension_equivariant enumBody_equivariant).map fun _ => rfl,
    (typeDefinition_equivariant inputBody_equivariant).map fun _ => rfl,
    (typeExtension_equivariant inputBody_equivariant).map fun _ => rfl,
    directiveDefinition_equivariant.map fun _ => rfl, List.forall_mem_nil _⟩

theorem definition_equivariant : definition.Equivariant m (Definition.mapSpans m.place) := by
  refine Parser.alt_equivariant ?_
  simp only [List.forall_mem_cons]
  exact ⟨executableDefinition_equivariant, typeSystemDefinition_equivariant, List.forall_mem_nil _⟩

end GraphQL.Production
