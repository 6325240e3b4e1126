import GraphQL.Proofs.Document.Leading
import GraphQL.Proofs.Layout.Value

/-! # Definitions and documents are spelled out

The layout of a well-formed document spells the tokens it was read from, except for its leading
separators: `Document.spells`. -/

namespace GraphQL

set_option autoImplicit false

open Lexer Outline Layout

variable {α δ : Type} {indent : Text}

/-! ## Parts that may be lacking -/

theorem Layout.Spells.option {layout : α → Text} {outline : α → Outline} {o : Option α}
    {wf : α → Bool} (h : o.all wf = true)
    (each : ∀ x, wf x = true → Spells (layout x) (outline x).tokens) :
    Spells (Layout.optional layout o) (tokensOf (Outline.optional outline o)) := by
  rw [tokensOf_optional]
  exact Spells.optional fun x here => each x ((Option.all_eq_true _ _).1 h x here)

theorem Layout.Spells.described_by (description : Option Token) {a : Text} {ts : List Token}
    (gap : IsGap indent) (ha : Spells a ts) :
    Spells (Layout.described description indent a)
      (tokensOf (Outline.optional descriptionOutline description) ++ ts) := by
  have leaves : tokensOf (Outline.optional descriptionOutline description) =
      description.elim [] fun t => [t] := by
    cases description <;> simp [descriptionOutline]
  rw [leaves]
  exact Spells.described gap ha

/-! ## Members -/

section Members

variable {separator : Text} {layout : α → Text} {outline : α → Outline} {wf : α → Bool}

/-- Members and the separators between them. -/
theorem Layout.Spells.chained {first : α} {rest : List (Token × Required α)}
    (each : ∀ a, wf a = true → Spells (layout a) (outline a).tokens) (hf : wf first = true)
    (hr : ∀ m ∈ rest, m.1.isPunctuator separator = true ∧ filled wf m.2 = true) :
    Spells (Layout.separated (" " ++ separator ++ " ")
        ((first :: rest.filterMap fun m => m.2.value?).map layout))
      ((outline first).tokens ++ rest.flatMap fun m => m.1 :: (single outline m.2).tokens) := by
  induction rest generalizing first with
  | nil =>
    rw [List.filterMap_nil, List.map_cons, List.map_nil, separated_singleton, List.flatMap_nil,
      List.append_nil]
    exact each first hf
  | cons m rest ih =>
    rw [List.forall_mem_cons] at hr
    obtain ⟨mark, next⟩ := m
    obtain ⟨next, rfl, hn⟩ := exists_of_filled hr.1.2
    have later := (ih hn hr.2).behindGap (by decide : IsGap " ")
    have behind := (later.behindMark hr.1.1).behindGap (by decide : IsGap " ")
    have read := (each first hf).append behind (stops_head (a := " ") (by decide) (by decide))
    simpa only [List.filterMap_cons, Recovery.Slot.value?, List.map_cons, separated_cons_cons,
      List.append_assoc, List.flatMap_cons, tokens_present, List.cons_append] using read

/-- Members are spelled by their own tokens, the first behind the introduction. -/
theorem MemberList.tokens_unled (members : MemberList α) :
    tokensOf (Outline.members outline members.unled) =
      members.intro :: ((single outline members.first).tokens ++
        members.rest.flatMap fun m => m.1 :: (single outline m.2).tokens) := by
  simp [MemberList.unled, Outline.members, Outline.optionalToken, Outline.optional]

theorem MemberList.tokens_of_mem_present {members : MemberList α} {a : α}
    (ha : a ∈ members.present) {t : Token} (ht : t ∈ (outline a).tokens) :
    t ∈ tokensOf (Outline.members outline members.unled) := by
  have spelled {next : Required α} (here : next.value? = some a) :
      t ∈ (single outline next).tokens := by
    cases next with
    | missing gap => cases here
    | present b =>
      obtain rfl : b = a := Option.some.inj here
      rwa [tokens_present]
  rw [MemberList.tokens_unled]
  refine List.mem_cons_of_mem _ (List.mem_append.2 ?_)
  obtain ⟨next, among, here⟩ := List.mem_filterMap.1 ha
  rcases List.mem_cons.1 among with rfl | among
  · exact .inl (spelled here)
  · obtain ⟨m, hm, rfl⟩ := List.mem_map.1 among
    exact .inr (List.mem_flatMap.2 ⟨m, hm, List.mem_cons_of_mem _ (spelled here)⟩)

theorem MemberList.spells {intro : Text} {introTest : Token → Bool} {members : MemberList α}
    (h : members.isWellFormed introTest (·.isPunctuator separator) wf = true)
    (hi : ∀ t, introTest t = true → Spells intro [t])
    (each : ∀ a, wf a = true → Spells (layout a) (outline a).tokens)
    (some : ∀ a, (∀ t ∈ (outline a).tokens, t.Legible) → layout a ≠ []) :
    Spells (members.layout intro separator layout)
      (tokensOf (Outline.members outline members.unled)) := by
  intro legible
  -- members have text, so that none is left out
  have long : ∀ name ∈ members.present.map layout, (!name.isEmpty) = true := by
    intro name hname
    obtain ⟨a, ha, rfl⟩ := List.mem_map.1 hname
    simpa using some a fun t ht => legible t (MemberList.tokens_of_mem_present ha ht)
  rw [MemberList.tokens_unled] at legible ⊢
  rw [MemberList.layout, List.filter_eq_self.2 long, List.append_assoc]
  obtain ⟨first, leading, member, rest⟩ := members
  simp only [MemberList.isWellFormed, Bool.and_eq_true, List.all_eq_true] at h
  obtain ⟨hf, -, hm, hr⟩ := h
  obtain ⟨member, rfl, hm⟩ := exists_of_filled hm
  have read := (hi first hf).spaced (by decide : IsGap " ") (by decide) (Spells.chained each hm hr)
  have present : (MemberList.mk first leading (.present member) rest).present =
      member :: rest.filterMap fun m => m.2.value? := by
    simp [MemberList.present, Recovery.Slot.value?, List.filterMap_map, Function.comp_def]
  rw [present]
  simp only [tokens_present] at legible ⊢
  exact read legible

end Members

theorem Layout.Spells.optional_unled {layout : MemberList α → Text}
    {outline : MemberList α → Outline} {wf : MemberList α → Bool} {members : Option (MemberList α)}
    (h : members.all wf = true) (each : ∀ m, wf m = true → Spells (layout m) (outline m.unled).tokens) :
    Spells (Layout.optional layout members)
      (tokensOf (Outline.optional outline (members.map MemberList.unled))) := by
  cases members with
  | none => exact Spells.nil
  | some m =>
    rw [Option.map_some, tokensOf_optional, Option.elim_some]
    exact each m h

theorem namedType_layout_ne_nil (type : NamedType) (h : ∀ t ∈ (type.outline .plain).tokens, t.Legible) :
    type.layout ≠ [] := (h type.name (by simp [NamedType.outline])).text_ne_nil

theorem interfaces_spells {m : MemberList NamedType} (h : interfacesAreWellFormed m = true) :
    Spells (interfacesLayout m) (interfacesOutline m.unled).tokens := by
  rw [interfacesOutline, tokens_node]
  exact MemberList.spells h (fun _ => Spells.word) (fun type _ => type.spells .plain)
    namedType_layout_ne_nil

theorem unionMembers_spells {m : MemberList NamedType} (h : unionMembersAreWellFormed m = true) :
    Spells (unionMembersLayout m) (unionMembersOutline m.unled).tokens := by
  rw [unionMembersOutline, tokens_node]
  exact MemberList.spells h (fun _ => Spells.mark) (fun type _ => type.spells .plain)
    namedType_layout_ne_nil

theorem DirectiveLocation.list_spells {m : MemberList DirectiveLocation}
    (h : DirectiveLocation.listIsWellFormed m = true) :
    Spells (DirectiveLocation.listLayout m) (DirectiveLocation.listOutline m.unled).tokens := by
  rw [DirectiveLocation.listOutline, tokens_node]
  refine MemberList.spells h (fun _ => Spells.word) (fun location _ => ?_) fun location legible => ?_
  · simpa [DirectiveLocation.outline] using Spells.token location.name
  · exact (legible location.name (by simp [DirectiveLocation.outline])).text_ne_nil

/-! ## Operations and fragments -/

theorem OperationType.spells {type : OperationType} (h : type.isWellFormed = true) :
    Spells type.kind.keyword type.outline.tokens := by
  simpa [OperationType.outline] using Spells.word h

theorem VariableDefinition.spells {d : VariableDefinition} (h : d.isWellFormed = true) :
    Spells d.layout d.outline.tokens := by
  obtain ⟨var, colon, type, default, directives⟩ := d
  simp only [VariableDefinition.isWellFormed, Bool.and_eq_true] at h
  obtain ⟨hv, hc, ht, hd, hds⟩ := h
  obtain ⟨colon, rfl, hc⟩ := exists_of_filled hc
  obtain ⟨type, rfl, ht⟩ := exists_of_filled ht
  have typed := (Variable.spells hv .plain).colon hc (TypeRef.spells ht .type)
  have read := typed.words_cons ((Spells.option hd fun _ => DefaultValue.spells).words_cons
    ((spells_directives hds).words_cons .words_nil))
  simpa [VariableDefinition.outline, VariableDefinition.layout] using read

theorem VariableDefinition.list_spells {d : Delimited VariableDefinition}
    (h : VariableDefinition.listIsWellFormed d = true) :
    Spells (VariableDefinition.listLayout d) (VariableDefinition.listOutline d).tokens := by
  rw [VariableDefinition.listOutline, tokens_node]
  exact Spells.delimited h (fun _ _ => VariableDefinition.spells) (by decide)

theorem VariableDefinition.list_stops (d : Delimited VariableDefinition) :
    Stops (VariableDefinition.listLayout d) := by
  rw [VariableDefinition.listLayout, List.append_assoc]
  exact stops_head (by decide) (by decide)

theorem Layout.Spells.optionalToken (t : Option Token) :
    Spells (Layout.optional Token.text t) (tokensOf (Outline.optionalToken t)) := by
  rw [tokensOf_optionalToken]
  exact Spells.optional fun t _ => Spells.token t

theorem OperationDefinition.spells {d : OperationDefinition} (h : d.isWellFormed = true)
    (gap : IsGap indent) (role : Role) : Spells (d.layout indent) (d.outline role).tokens := by
  obtain ⟨type, name, definitions, directives, set⟩ := d
  rw [OperationDefinition.isWellFormed, Bool.and_eq_true] at h
  obtain ⟨hs, h⟩ := h
  obtain ⟨set, rfl, hs⟩ := exists_of_filled hs
  have body := SelectionSet.spells hs gap
  cases type with
  | none =>
    simp only [Bool.and_eq_true, Option.isNone_iff_eq_none] at h
    obtain ⟨rfl, rfl, rfl⟩ := h
    simpa [OperationDefinition.outline, OperationDefinition.layout] using body
  | some type =>
    simp only [Bool.and_eq_true] at h
    obtain ⟨ht, -, hv, hd⟩ := h
    have named := (Spells.optionalToken name).append
      (Spells.option hv fun _ => VariableDefinition.list_spells)
      (stops_optional fun d _ => VariableDefinition.list_stops d)
    have read := (OperationType.spells ht).words_cons (named.words_cons
      ((spells_directives hd).words_cons (body.words_cons .words_nil)))
    simpa [OperationDefinition.outline, OperationDefinition.layout] using read

theorem FragmentDefinition.spells {d : FragmentDefinition} (h : d.isWellFormed = true)
    (gap : IsGap indent) (role : Role) : Spells (d.layout indent) (d.outline role).tokens := by
  obtain ⟨keyword, name, condition, directives, set⟩ := d
  simp only [FragmentDefinition.isWellFormed, Bool.and_eq_true] at h
  obtain ⟨hk, hn, hc, hd, hs⟩ := h
  obtain ⟨name, rfl, -⟩ := exists_of_filled hn
  obtain ⟨condition, rfl, hc⟩ := exists_of_filled hc
  obtain ⟨set, rfl, hs⟩ := exists_of_filled hs
  have read := (Spells.word hk).words_cons ((Spells.token name).words_cons
    ((TypeCondition.spells hc).words_cons ((spells_directives hd).words_cons
      ((SelectionSet.spells hs gap).words_cons .words_nil))))
  simpa [FragmentDefinition.outline, FragmentDefinition.layout] using read

/-! ## Parts of the type system -/

theorem InputValueDefinition.spells {d : InputValueDefinition} (h : d.isWellFormed = true)
    (gap : IsGap indent) : Spells (d.layout indent) d.outline.tokens := by
  obtain ⟨description, name, colon, type, default, directives⟩ := d
  simp only [InputValueDefinition.isWellFormed, Bool.and_eq_true] at h
  obtain ⟨-, -, hc, ht, hd, hds⟩ := h
  obtain ⟨colon, rfl, hc⟩ := exists_of_filled hc
  obtain ⟨type, rfl, ht⟩ := exists_of_filled ht
  have typed := (Spells.token name).colon hc (TypeRef.spells ht .type)
  have read := typed.words_cons ((Spells.option hd fun _ => DefaultValue.spells).words_cons
    ((spells_directives hds).words_cons .words_nil))
  simpa [InputValueDefinition.outline, InputValueDefinition.layout] using
    Spells.described_by description gap read

theorem InputValueDefinition.arguments_spells {d : Delimited InputValueDefinition}
    (h : InputValueDefinition.argumentsAreWellFormed d = true) (gap : IsGap indent) :
    Spells (InputValueDefinition.argumentsLayout indent d)
      (InputValueDefinition.argumentsOutline d).tokens := by
  rw [InputValueDefinition.argumentsOutline, tokens_node, InputValueDefinition.argumentsLayout]
  split
  · obtain ⟨opening, items, closing⟩ := d
    simp only [InputValueDefinition.argumentsAreWellFormed, Delimited.isWellFormed, Bool.and_eq_true,
      List.all_eq_true] at h
    obtain ⟨ho, hi, hc⟩ := h
    obtain ⟨closing, rfl, hc⟩ := exists_of_filled hc
    have read := Spells.lines ho gap 
      (fun d hd => InputValueDefinition.spells (hi d hd) (isGap_step gap)) hc
    have lines : Spells ("(\n" ++ separated "\n" (items.map fun d =>
          indent ++ step ++ d.layout (indent ++ step)) ++ "\n" ++ indent ++ ")") _ := read
    simpa [delimited] using lines
  · exact Spells.delimited h (fun _ _ wf => InputValueDefinition.spells wf gap) (by decide)

theorem InputValueDefinition.arguments_stops (d : Delimited InputValueDefinition) :
    Stops (InputValueDefinition.argumentsLayout indent d) := by
  rw [InputValueDefinition.argumentsLayout]
  split
  · simp only [List.append_assoc]
    exact stops_head (by decide) (by decide)
  · rw [List.append_assoc]
    exact stops_head (by decide) (by decide)

/-- Items in braces, each on a line of its own. -/
theorem Layout.Spells.braced {layout : α → Text} {outline : α → Outline} {wf : α → Bool}
    {items : Delimited α} (h : items.isWellFormed "\x7b" "\x7d" wf = true) (gap : IsGap indent)
    (each : ∀ x, wf x = true → Spells (layout x) (outline x).tokens) :
    Spells (Layout.block indent (items.items.map layout))
      (tokensOf (Outline.delimited outline items)) := by
  obtain ⟨opening, items, closing⟩ := items
  simp only [Delimited.isWellFormed, Bool.and_eq_true, List.all_eq_true] at h
  obtain ⟨ho, hi, hc⟩ := h
  obtain ⟨closing, rfl, hc⟩ := exists_of_filled hc
  simpa [Outline.delimited] using Spells.block ho gap (fun x hx => each x (hi x hx)) hc

theorem InputValueDefinition.fields_spells {d : Delimited InputValueDefinition}
    (h : InputValueDefinition.fieldsAreWellFormed d = true) (gap : IsGap indent) :
    Spells (InputValueDefinition.fieldsLayout indent d)
      (InputValueDefinition.fieldsOutline d).tokens := by
  rw [InputValueDefinition.fieldsOutline, tokens_node]
  exact Spells.braced h gap fun _ wf => InputValueDefinition.spells wf (isGap_step gap)

theorem FieldDefinition.spells {d : FieldDefinition} (h : d.isWellFormed = true)
    (gap : IsGap indent) : Spells (d.layout indent) d.outline.tokens := by
  obtain ⟨description, name, arguments, colon, type, directives⟩ := d
  simp only [FieldDefinition.isWellFormed, Bool.and_eq_true] at h
  obtain ⟨-, -, ha, hc, ht, hds⟩ := h
  obtain ⟨colon, rfl, hc⟩ := exists_of_filled hc
  obtain ⟨type, rfl, ht⟩ := exists_of_filled ht
  have named := (Spells.token name).append
    (Spells.option ha fun _ wf => InputValueDefinition.arguments_spells wf gap)
    (stops_optional fun d _ => InputValueDefinition.arguments_stops d)
  have read := (named.colon hc (TypeRef.spells ht .type)).words_cons
    ((spells_directives hds).words_cons .words_nil)
  simpa [FieldDefinition.outline, FieldDefinition.layout] using
    Spells.described_by description gap read

theorem FieldDefinition.list_spells {d : Delimited FieldDefinition}
    (h : FieldDefinition.listIsWellFormed d = true) (gap : IsGap indent) :
    Spells (FieldDefinition.listLayout indent d) (FieldDefinition.listOutline d).tokens := by
  rw [FieldDefinition.listOutline, tokens_node]
  exact Spells.braced h gap fun _ wf => FieldDefinition.spells wf (isGap_step gap)

theorem EnumValueDefinition.spells {d : EnumValueDefinition} (h : d.isWellFormed = true)
    (gap : IsGap indent) : Spells (d.layout indent) d.outline.tokens := by
  obtain ⟨description, value, directives⟩ := d
  simp only [EnumValueDefinition.isWellFormed, Bool.and_eq_true] at h
  have read := (Spells.token value).words_cons ((spells_directives h.2.2).words_cons .words_nil)
  simpa [EnumValueDefinition.outline, EnumValueDefinition.layout, Value.outline] using
    Spells.described_by description gap read

theorem EnumValueDefinition.list_spells {d : Delimited EnumValueDefinition}
    (h : EnumValueDefinition.listIsWellFormed d = true) (gap : IsGap indent) :
    Spells (EnumValueDefinition.listLayout indent d) (EnumValueDefinition.listOutline d).tokens := by
  rw [EnumValueDefinition.listOutline, tokens_node]
  exact Spells.braced h gap fun _ wf => EnumValueDefinition.spells wf (isGap_step gap)

/-! ## Types -/

theorem FieldedBody.spells {body : FieldedBody} (h : body.isWellFormed = true) (gap : IsGap indent) :
    Spells (words (body.layouts indent)) (tokensOf body.unled.outlines) := by
  obtain ⟨interfaces, directives, fields⟩ := body
  simp only [FieldedBody.isWellFormed, Bool.and_eq_true] at h
  obtain ⟨hi, hd, hf⟩ := h
  have read := (Spells.optional_unled hi fun _ => interfaces_spells).words_cons
    ((spells_directives hd).words_cons
    ((Spells.option hf fun _ wf => FieldDefinition.list_spells wf gap).words_cons .words_nil))
  simpa [FieldedBody.unled, FieldedBody.outlines, FieldedBody.layouts] using read

theorem TypeBody.spells {scalarLayout : δ → Text} {scalarOutline : δ → List Outline}
    {scalar : δ → Bool} {body : TypeBody δ} (h : body.isWellFormed scalar = true)
    (each : ∀ d, scalar d = true → Spells (scalarLayout d) (tokensOf (scalarOutline d)))
    (gap : IsGap indent) :
    Spells (words (body.layouts scalarLayout indent))
      (tokensOf (body.unled.outlines scalarOutline)) := by
  cases body with
  | scalar directives =>
    have read := (each directives h).words_cons .words_nil
    simpa [TypeBody.unled, TypeBody.outlines, TypeBody.layouts] using read
  | object body => exact FieldedBody.spells h gap
  | interface body => exact FieldedBody.spells h gap
  | union directives members =>
    rw [TypeBody.isWellFormed, Bool.and_eq_true] at h
    have read := (spells_directives h.1).words_cons
      ((Spells.optional_unled h.2 fun _ => unionMembers_spells).words_cons .words_nil)
    simpa [TypeBody.unled, TypeBody.outlines, TypeBody.layouts] using read
  | enum directives values =>
    rw [TypeBody.isWellFormed, Bool.and_eq_true] at h
    have read := (spells_directives h.1).words_cons
      ((Spells.option h.2 fun _ wf => EnumValueDefinition.list_spells wf gap).words_cons .words_nil)
    simpa [TypeBody.unled, TypeBody.outlines, TypeBody.layouts] using read
  | input directives fields =>
    rw [TypeBody.isWellFormed, Bool.and_eq_true] at h
    have read := (spells_directives h.1).words_cons
      ((Spells.option h.2 fun _ wf => InputValueDefinition.fields_spells wf gap).words_cons .words_nil)
    simpa [TypeBody.unled, TypeBody.outlines, TypeBody.layouts] using read

theorem TypeDefinition.spells {d : TypeDefinition} (h : d.isWellFormed = true) (gap : IsGap indent)
    (role : Role) : Spells (d.layout indent) (d.unled.outline role).tokens := by
  obtain ⟨description, keyword, name, body⟩ := d
  simp only [TypeDefinition.isWellFormed, Bool.and_eq_true] at h
  obtain ⟨-, hk, hn, hb⟩ := h
  obtain ⟨name, rfl, -⟩ := exists_of_filled hn
  have read := (Spells.word hk).words_cons ((Spells.token name).words_cons
    (TypeBody.spells hb (fun _ => spells_directives) gap))
  simpa [TypeDefinition.unled, TypeDefinition.outline, TypeDefinition.layout] using
    Spells.described_by description gap read

theorem TypeExtension.spells {d : TypeExtension} (h : d.isWellFormed = true) (gap : IsGap indent)
    (role : Role) : Spells (d.layout indent) (d.unled.outline role).tokens := by
  obtain ⟨extend, keyword, name, body⟩ := d
  simp only [TypeExtension.isWellFormed, Bool.and_eq_true] at h
  obtain ⟨he, hk, hn, hb⟩ := h
  obtain ⟨name, rfl, -⟩ := exists_of_filled hn
  have scalar : ∀ d : Required Directives, filled Directives.isWellFormed d = true →
      Spells (slot Directives.layout d) (tokensOf [single Directives.outline d]) := by
    intro d hd
    obtain ⟨d, rfl, hd⟩ := exists_of_filled hd
    simpa using Directives.spells hd
  have read := (Spells.word he).words_cons ((Spells.word hk).words_cons
    ((Spells.token name).words_cons (TypeBody.spells hb scalar gap)))
  simpa [TypeExtension.unled, TypeExtension.outline, TypeExtension.layout] using read

/-! ## Schemas -/

theorem RootOperationType.spells {root : RootOperationType} (h : root.isWellFormed = true) :
    Spells root.layout root.outline.tokens := by
  obtain ⟨operation, colon, type⟩ := root
  simp only [RootOperationType.isWellFormed, Bool.and_eq_true] at h
  obtain ⟨ho, hc, ht⟩ := h
  obtain ⟨colon, rfl, hc⟩ := exists_of_filled hc
  obtain ⟨type, rfl, -⟩ := exists_of_filled ht
  have read := (OperationType.spells ho).colon hc (type.spells .plain)
  simpa [RootOperationType.outline, RootOperationType.layout] using read

theorem RootOperationTypes.spells {roots : RootOperationTypes} (h : roots.isWellFormed = true)
    (gap : IsGap indent) : Spells (roots.layout indent) roots.outline.tokens := by
  obtain ⟨opening, entries, closing⟩ := roots
  simp only [RootOperationTypes.isWellFormed, Bool.and_eq_true] at h
  obtain ⟨ho, he, hc⟩ := h
  obtain ⟨entries, rfl, each⟩ := exists_of_filled he
  obtain ⟨closing, rfl, hc⟩ := exists_of_filled hc
  rw [Bool.and_eq_true, List.all_eq_true] at each
  have read := Spells.block ho gap (fun root hroot => RootOperationType.spells (each.2 root hroot)) hc
  simpa [RootOperationTypes.outline, RootOperationTypes.layout, Recovery.Slot.value?, Outline.slot,
    tokens] using read

theorem SchemaDefinition.spells {d : SchemaDefinition} (h : d.isWellFormed = true)
    (gap : IsGap indent) (role : Role) : Spells (d.layout indent) (d.outline role).tokens := by
  obtain ⟨description, keyword, directives, roots⟩ := d
  simp only [SchemaDefinition.isWellFormed, Bool.and_eq_true] at h
  obtain ⟨-, hk, hd, hr⟩ := h
  obtain ⟨roots, rfl, hr⟩ := exists_of_filled hr
  have read := (Spells.word hk).words_cons ((spells_directives hd).words_cons
    ((RootOperationTypes.spells hr gap).words_cons .words_nil))
  simpa [SchemaDefinition.outline, SchemaDefinition.layout] using
    Spells.described_by description gap read

theorem SchemaExtension.spells {d : SchemaExtension} (h : d.isWellFormed = true)
    (gap : IsGap indent) (role : Role) : Spells (d.layout indent) (d.outline role).tokens := by
  obtain ⟨extend, keyword, directives, roots⟩ := d
  simp only [SchemaExtension.isWellFormed, Bool.and_eq_true] at h
  obtain ⟨he, hk, hd, hr⟩ := h
  have both : Spells ("extend" ++ (" " ++ "schema")) ([extend] ++ [keyword]) :=
    (Spells.word he).spaced (by decide) (by decide) (Spells.word hk)
  have head : Spells "extend schema" ([extend] ++ [keyword]) := both
  have read := head.words_cons ((spells_directives hd).words_cons
    ((Spells.option hr fun _ wf => RootOperationTypes.spells wf gap).words_cons .words_nil))
  simpa [SchemaExtension.outline, SchemaExtension.layout] using read

/-! ## Documents -/

theorem DirectiveDefinition.spells {d : DirectiveDefinition} (h : d.isWellFormed = true)
    (gap : IsGap indent) (role : Role) : Spells (d.layout indent) (d.unled.outline role).tokens := by
  obtain ⟨description, keyword, sign, name, arguments, repeatable, locations⟩ := d
  simp only [DirectiveDefinition.isWellFormed, Bool.and_eq_true] at h
  obtain ⟨-, hk, hs, hn, ha, -, hl⟩ := h
  obtain ⟨sign, rfl, hs⟩ := exists_of_filled hs
  obtain ⟨name, rfl, -⟩ := exists_of_filled hn
  obtain ⟨locations, rfl, hl⟩ := exists_of_filled hl
  have named := ((Spells.token name).behindMark hs).append
    (Spells.option ha fun _ wf => InputValueDefinition.arguments_spells wf gap)
    (stops_optional fun d _ => InputValueDefinition.arguments_stops d)
  have read := (Spells.word hk).words_cons (named.words_cons
    ((Spells.optionalToken repeatable).words_cons
      ((DirectiveLocation.list_spells hl).words_cons .words_nil)))
  simpa [DirectiveDefinition.unled, DirectiveDefinition.outline, DirectiveDefinition.layout] using
    Spells.described_by description gap read

theorem Definition.spells {d : Definition} (h : d.isWellFormed = true) (gap : IsGap indent)
    (role : Role) : Spells (d.layout indent) (d.unled.outline role).tokens := by
  cases d with
  | operation d => exact OperationDefinition.spells h gap role
  | fragment d => exact FragmentDefinition.spells h gap role
  | schema d => exact SchemaDefinition.spells h gap role
  | schemaExtension d => exact SchemaExtension.spells h gap role
  | type d => exact TypeDefinition.spells h gap role
  | typeExtension d => exact TypeExtension.spells h gap role
  | directive d => exact DirectiveDefinition.spells h gap role

/-- The layout of a well-formed document spells all its tokens but its leading separators. -/
theorem Document.spells {document : Document} (h : document.isWellFormed = true) :
    Spells document.layout document.unled.outline.tokens := by
  simp only [Document.isWellFormed, Bool.and_eq_true, List.all_eq_true] at h
  have noIndent : IsGap [] := by decide
  have all : Spells (separated "\n\n" (document.definitions.map (Definition.layout [])))
      (document.definitions.flatMap fun d => (d.unled.outline .definition).tokens) :=
    Spells.separated (by decide) (by decide) fun d hd => Definition.spells (h.1 d hd) noIndent _
  rw [Document.outline, tokens_node, tokensOf_map, Document.unled, List.flatMap_map]
  rw [Document.layout]
  split
  next none =>
    rw [List.isEmpty_iff] at none
    rw [none]
    exact Spells.nil
  next =>
    have ended := all.append (Spells.nil.behindGap (by decide : IsGap "\n")) (by decide)
    simpa using ended

end GraphQL
