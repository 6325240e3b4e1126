import GraphQL.Production.Operation
import GraphQL.Proofs.Production.Type

/-! # Reading selections, operations and fragments

Dots are told apart by what follows them: a spread is refused where no fragment name does. -/

namespace GraphQL.Production

set_option autoImplicit false

open Outline
open Recovery (Chain Cursor Parser)

variable {levels : Nat} {rest : List Token}

/-! ## Fields -/

theorem fieldHead_takes {fieldAlias : Option Alias} {name : Token}
    (ha : fieldAlias.all Alias.isWellFormed = true) (hn : name.isAnyName = true) :
    fieldHead.Takes [.mark ":"] ((fieldAlias.elim [] fun a => a.outline.tokens) ++ [name])
      (fieldAlias, .present name) := by
  cases fieldAlias with
  | none =>
    refine Parser.Takes.alt_cons ?_ fun rest hr => ?_
    · exact (((name_takes hn).map _).alt_head []).mono (List.nil_subset _)
    · exact Chain.toParser_refuses fun c hc => fieldAlias_unrecognized hc hn hr
  | some a =>
    rw [Option.all_some, Alias.isWellFormed, Bool.and_eq_true] at ha
    have read := (Chain.of_takes (fieldAlias_takes ha.1 ha.2)).andSlot (name_takes hn)
      name_guarded.led rfl .fieldName
    have leaves : (Alias.outline a).tokens = [a.name, a.colon] := by simp [Alias.outline]
    rw [Option.elim_some, leaves]
    exact ((read.takes _).alt_head _).mono (List.nil_subset _)

theorem fieldHead_guarded : fieldHead.Guarded [[.kind .name], [.kind .name]].flatten :=
  Parser.alt_guarded (.cons (Chain.map_guarded fieldAlias_guarded.recognize _)
    (.cons (name_guarded.map _) .nil))

theorem field_guarded (levels : Nat) (sets : Parser Token SelectionSet) :
    (field levels sets).Guarded [.kind .name, .kind .name] :=
  Chain.map_guarded fieldHead_guarded.recognize _

/-- What a field would take for its own. -/
def fieldStops : List Lead := [.mark ":", .mark "(", .mark "@", .mark "\x7b"]

/-! ## Fragments -/

theorem typeCondition_takes {condition : TypeCondition} (h : condition.isWellFormed = true) :
    typeCondition.Takes [] condition.outline.tokens condition := by
  obtain ⟨keyword, type⟩ := condition
  rw [TypeCondition.isWellFormed, Bool.and_eq_true] at h
  obtain ⟨type, rfl, ht⟩ := exists_of_filled h.2
  have read := (Chain.of_takes (keyword_takes h.1)).andSlot (namedType_takes ht)
    namedType_guarded.led rfl .typeConditionType
  have leaves : (TypeCondition.outline ⟨keyword, .present type⟩).tokens =
      [keyword] ++ [type.name] := by simp [TypeCondition.outline, NamedType.outline]
  rw [leaves]
  exact read.takes _

theorem typeCondition_guarded : typeCondition.Guarded [.word "on"] :=
  Chain.map_guarded (keyword_guarded "on").recognize _

theorem fragmentSpread_takes {spread : FragmentSpread} (role : Role)
    (h : spread.isWellFormed = true) (nests : (spread.outline role).nesting ≤ levels) :
    (fragmentSpread levels).Takes [.mark "@", .mark "("] (spread.outline role).tokens spread := by
  obtain ⟨dots, name, directives⟩ := spread
  simp only [FragmentSpread.isWellFormed, Bool.and_eq_true] at h
  obtain ⟨hd, hn, hs⟩ := h
  have inside := inside_of_plain rfl nests
  simp only [nestingOf_cons_le, nestingOf_optional_le] at inside
  have named : name.isAnyName = true := by
    rw [Token.isNameExcept, Bool.and_eq_true] at hn
    exact hn.1
  have spreads := (spreadDots_reads hd).and (name_takes named).reads fun rest _ => hn
  have whole := andDirectives spreads hs inside.2.2 rfl
  have leaves : (FragmentSpread.outline role ⟨dots, name, directives⟩).tokens =
      [dots] ++ [name] ++ directives.elim [] fun d => (Directives.outline d).tokens := by
    simp [FragmentSpread.outline]
  rw [leaves]
  exact whole.takes _

theorem fragmentSpread_guarded (levels : Nat) : (fragmentSpread levels).Guarded [.mark "..."] :=
  Chain.map_guarded spreadDots_guarded.recognize _

/-- What stands between the dots of an inline fragment and what is in it. -/
theorem not_fragmentNameAhead {ahead : List Token}
    (h : Begins [.word "on", .mark "@", .mark "\x7b"] ahead) : ¬FragmentNameAhead ahead := by
  obtain ⟨t, ht, l, hl, accepted⟩ := h
  intro named
  rw [FragmentNameAhead, ht, Option.any_some, Token.isNameExcept, Bool.and_eq_true] at named
  obtain ⟨hk, ht⟩ := named
  simp only [List.mem_cons, List.not_mem_nil, or_false] at hl
  obtain rfl | rfl | rfl := hl
  · rw [(Lead.kind_of_word accepted).2] at ht
    cases ht
  · rw [(Lead.kind_of_mark accepted).1] at hk
    cases hk
  · rw [(Lead.kind_of_mark accepted).1] at hk
    cases hk

theorem inlineFragment_guarded (levels : Nat) (sets : Parser Token SelectionSet) :
    (inlineFragment levels sets).Guarded [.mark "..."] :=
  Chain.map_guarded (punctuator_guarded "...").recognize _

theorem selection_guards (levels : Nat) (sets : Parser Token SelectionSet) :
    List.Forall₂ Parser.Guarded [(fragmentSpread levels).map Selection.spread,
      (inlineFragment levels sets).map .inline, (field levels sets).map .field]
      [[.mark "..."], [.mark "..."], [.kind .name, .kind .name]] :=
  .cons ((fragmentSpread_guarded levels).map _) <|
    .cons ((inlineFragment_guarded levels sets).map _) <|
    .cons ((field_guarded levels sets).map _) .nil

theorem selection_guarded (levels : Nat) (sets : Parser Token SelectionSet) :
    (selection levels sets).Guarded
      [.mark "...", .mark "...", .kind .name, .kind .name] :=
  Parser.alt_guarded (selection_guards levels sets)

section Sets

/-! The selection sets inside are read by a parser of their own. -/

variable {sets : Parser Token SelectionSet}
  (inner : ∀ set : SelectionSet, SelectionSet.isWellFormed set = true →
    (SelectionSet.outline set).nesting ≤ levels → sets.Takes [] (SelectionSet.outline set).tokens set)
  (guarded : sets.Guarded [.mark "\x7b"])

include inner guarded

theorem field_takes {f : Field SelectionSet} (role : Role)
    (h : (Selection.field f).isWellFormed = true) (nests : (Field.outline role f).nesting ≤ levels) :
    (field levels sets).Takes fieldStops (Field.outline role f).tokens f := by
  rw [Selection.isWellFormed_field] at h
  rw [Field.outline_eq] at nests ⊢
  obtain ⟨fieldAlias, name, arguments, directives, set⟩ := f
  simp only [Bool.and_eq_true] at h
  obtain ⟨hf, hn, ha, hd, hs⟩ := h
  obtain ⟨name, rfl, hn⟩ := exists_of_filled hn
  have inside := inside_of_plain rfl nests
  simp only [nestingOf_append_le, nestingOf_cons_le, nestingOf_optional_le] at inside
  obtain ⟨-, -, na, nd, ns⟩ := inside
  rw [Option.all_eq_true] at ha hs
  have named := (Chain.of_takes (fieldHead_takes hf hn)).andOpt (o := arguments)
    (fun a hm => arguments_take (ha a hm) (na a hm)) (arguments_guarded levels).led rfl
  have directed := andDirectives named hd nd rfl
  have whole := directed.andOpt (o := set) (fun s hm => inner s (hs s hm) (ns s hm)) guarded.led rfl
  have leaves : tokensOf (optional Alias.outline fieldAlias ++ tokenSlot (.present name) ::
      (optional Arguments.outline arguments ++ (optional Directives.outline directives ++
        optional SelectionSet.outline set))) =
      (fieldAlias.elim [] fun a => a.outline.tokens) ++ [name] ++
        (arguments.elim [] fun a => (Arguments.outline a).tokens) ++
          (directives.elim [] fun d => (Directives.outline d).tokens) ++
            set.elim [] fun s => (SelectionSet.outline s).tokens := by simp
  rw [tokens_node, leaves]
  exact (whole.takes _).mono (by simp [fieldStops])

theorem inlineFragment_takes {f : InlineFragment SelectionSet} (role : Role)
    (h : (Selection.inline f).isWellFormed = true)
    (nests : (InlineFragment.outline role f).nesting ≤ levels) :
    (inlineFragment levels sets).Takes [] (InlineFragment.outline role f).tokens f := by
  rw [Selection.isWellFormed_inline] at h
  rw [InlineFragment.outline_eq] at nests ⊢
  obtain ⟨dots, condition, directives, set⟩ := f
  simp only [Bool.and_eq_true] at h
  obtain ⟨hd, hc, hs, hset⟩ := h
  obtain ⟨set, rfl, hset⟩ := exists_of_filled hset
  have inside := inside_of_plain rfl nests
  simp only [nestingOf_append_le, nestingOf_cons_le, nestingOf_optional_le, nesting_present_le]
    at inside
  obtain ⟨-, -, nd, ns, -⟩ := inside
  rw [Option.all_eq_true] at hc
  have conditioned := (Chain.of_takes (punctuator_takes hd)).andOpt (o := condition)
    (fun c hm => typeCondition_takes (hc c hm)) typeCondition_guarded.led rfl
  have whole := (andDirectives conditioned hs nd rfl).andSlot (inner set hset ns) guarded.led rfl
    .inlineFragmentSelectionSet
  have leaves : tokensOf (.token dots :: (optional TypeCondition.outline condition ++
      (optional Directives.outline directives ++ [single SelectionSet.outline (.present set)]))) =
      [dots] ++ (condition.elim [] fun c => (TypeCondition.outline c).tokens) ++
        (directives.elim [] fun d => (Directives.outline d).tokens) ++
          (SelectionSet.outline set).tokens := by simp
  rw [tokens_node, leaves]
  exact whole.takes _

/-- Where an inline fragment stands no spread does. -/
theorem fragmentSpread_refuses {f : InlineFragment SelectionSet} (role : Role)
    (h : (Selection.inline f).isWellFormed = true)
    (nests : (InlineFragment.outline role f).nesting ≤ levels) :
    (fragmentSpread levels).Refuses ((InlineFragment.outline role f).tokens ++ rest) := by
  rw [Selection.isWellFormed_inline] at h
  rw [InlineFragment.outline_eq] at nests ⊢
  obtain ⟨dots, condition, directives, set⟩ := f
  simp only [Bool.and_eq_true, Option.all_eq_true] at h
  obtain ⟨hd, hc, hs, hset⟩ := h
  obtain ⟨set, rfl, hset⟩ := exists_of_filled hset
  have inside := inside_of_plain rfl nests
  simp only [nestingOf_append_le, nestingOf_cons_le, nestingOf_optional_le, nesting_present_le]
    at inside
  obtain ⟨-, -, nd, ns, -⟩ := inside
  have set_begins := (inner set hset ns).begins guarded.led (avoids_none rest)
  have directives_begin := Parser.begins_option (o := directives)
    (fun d hm => directives_take (hs d hm) (nd d hm)) (directives_led levels) set_begins rfl
  have tail := Parser.begins_option (o := condition)
    (fun c hm => typeCondition_takes (hc c hm)) typeCondition_guarded.led directives_begin rfl
  refine Chain.toParser_refuses fun c ahead => ?_
  have hahead : c.ahead = dots :: ((condition.elim [] fun c => (TypeCondition.outline c).tokens) ++
      ((directives.elim [] fun d => (Directives.outline d).tokens) ++
        ((SelectionSet.outline set).tokens ++ rest))) := by
    rw [ahead]
    simp
  exact (spreadDots_recognize hahead hd).trans (decide_eq_false (not_fragmentNameAhead tail))

theorem selection_takes {s : Selection} (h : s.isWellFormed = true)
    (nests : s.outline.nesting ≤ levels) :
    (selection levels sets).Takes fieldStops s.outline.tokens s := by
  cases s with
  | spread s =>
    rw [Selection.isWellFormed] at h
    rw [Selection.outline] at nests ⊢
    exact (((fragmentSpread_takes .selection h nests).map _).alt_head _).mono (by simp [fieldStops])
  | inline f =>
    rw [Selection.outline] at nests ⊢
    have read := (inlineFragment_takes inner guarded .selection h nests).map Selection.inline
    -- a spread begins with the same dots, so its first token does not tell it apart
    refine Parser.Takes.alt_cons (read.alt_head _ |>.mono (List.nil_subset _)) fun rest _ => ?_
    exact (fragmentSpread_refuses inner guarded .selection h nests).map _
  | field f =>
    rw [Selection.outline] at nests ⊢
    have read := field_takes inner guarded .selection h nests
    refine Parser.alt_takes (selection_guards levels sets) (i := 2) rfl (read.map _) fun rest hr => ?_
    exact (read.begins (field_guarded levels sets).led hr).avoids rfl

end Sets

/-! ## Selection sets -/

theorem selectionSet_guarded (levels : Nat) : (selectionSet levels).Guarded [.mark "\x7b"] := by
  cases levels with
  | zero => exact Parser.tooDeep_guarded (punctuator_guarded "\x7b").recognize
  | succ levels => exact delimited_guarded _ _ _ _

theorem selectionSet_takes {set : SelectionSet} (h : SelectionSet.isWellFormed set = true)
    (nests : (SelectionSet.outline set).nesting ≤ levels) :
    (selectionSet levels).Takes [] (SelectionSet.outline set).tokens set := by
  induction levels generalizing set with
  | zero =>
    rw [SelectionSet.outline_eq] at nests
    obtain ⟨m, hm, -⟩ := inside_of_nests rfl nests
    omega
  | succ levels ih =>
    rw [SelectionSet.isWellFormed_eq] at h
    rw [SelectionSet.outline_eq] at nests ⊢
    obtain ⟨m, hm, deep⟩ := inside_of_nests rfl nests
    cases hm
    rw [nestingOf_delimited_le] at deep
    rw [tokens_node]
    exact delimited_takes h _
      (fun s hs wf => selection_takes (fun _ => ih) (selectionSet_guarded levels) wf (deep s hs))
      (selection_guarded levels _).led rfl rfl

/-! ## Operations -/

theorem operationType_takes {type : OperationType} (h : type.isWellFormed = true) :
    operationType.Takes [] [type.keyword] type := by
  obtain ⟨t, kind⟩ := type
  obtain ⟨hk, ht⟩ := Lead.kind_of_word h
  refine Parser.token_takes ?_
  dsimp only at hk ht ⊢
  rw [hk, ht]
  cases kind <;> rfl

/-- What operations with a keyword begin with. -/
def operationLeads : List Lead := [.word "query", .word "mutation", .word "subscription"]

theorem operationType_guarded : operationType.Guarded operationLeads := by
  refine Parser.token_guarded fun t ht => ?_
  have other (kind : OperationKind) (hk : t.kind = .name) : t.text ≠ kind.keyword := by
    intro same
    have avoided : Lead.accepts (.word kind.keyword) t = false :=
      ht _ (by cases kind <;> simp [operationLeads, OperationKind.keyword])
    rw [Lead.accepts, Token.isName, hk, same] at avoided
    simp at avoided
  split
  · rename_i hk
    have hk : t.kind = .name := by simpa using hk
    rw [OperationKind.ofKeyword?, if_neg (other .query hk), if_neg (other .mutation hk),
      if_neg (other .subscription hk), Option.map_none]
  · rfl

/-- What the definition of a variable or input value would take for its own. -/
def inputStops : List Lead := [.mark "!", .mark "=", .mark "@", .mark "("]

/-- The type, default value and directives behind what a variable or input value is named by. -/
theorem typed_reads {α : Type} {chain : Chain Token α} {leaves : List Token} {v : α}
    (h : chain.Reads leaves v (Avoids [])) {colon : Required Token} {type : Required TypeRef}
    {default : Option DefaultValue} {directives : Option Directives}
    (hc : filled (·.isPunctuator ":") colon = true) (ht : filled TypeRef.isWellFormed type = true)
    (hd : default.all DefaultValue.isWellFormed = true)
    (hs : directives.all Directives.isWellFormed = true)
    (nests : nestingOf (tokenSlot colon :: single (TypeRef.outline .type) type ::
      (optional DefaultValue.outline default ++ optional Directives.outline directives)) ≤ maxNesting)
    (noColon noType : SyntaxCode) :
    (((andSlot (andSlot chain (punctuator ":") noColon) (Production.type maxNesting) noType).and
      defaultValue.opt).and (Production.directives maxNesting).opt).Reads
      (leaves ++ tokensOf (tokenSlot colon :: single (TypeRef.outline .type) type ::
        (optional DefaultValue.outline default ++ optional Directives.outline directives)))
      ((((v, colon), type), default), directives) (Avoids inputStops) := by
  obtain ⟨colon, rfl, hc⟩ := exists_of_filled hc
  obtain ⟨type, rfl, ht⟩ := exists_of_filled ht
  simp only [nestingOf_append_le, nestingOf_cons_le, nestingOf_optional_le, nesting_present_le]
    at nests
  obtain ⟨-, nt, nd, ns⟩ := nests
  rw [Option.all_eq_true] at hd
  have typed := (h.andSlot (punctuator_takes hc) (punctuator_guarded ":").led rfl noColon).andSlot
    (type_takes .type ht nt) (type_guarded maxNesting).led rfl noType
  have defaulted := typed.andOpt (o := default)
    (fun d hm => defaultValue_takes (hd d hm) (nd d hm)) defaultValue_guarded.led rfl
  have whole := andDirectives defaulted hs ns rfl
  simp only [tokensOf_append, tokensOf_cons, tokensOf_optional, tokens_present, tokens_presentToken,
    List.append_assoc] at whole ⊢
  exact whole.mono fun rest hr => hr.sub (by simp [inputStops])

theorem variableDefinition_takes {d : VariableDefinition} (h : d.isWellFormed = true)
    (nests : d.outline.nesting ≤ maxNesting) :
    variableDefinition.Takes inputStops d.outline.tokens d := by
  simp only [VariableDefinition.isWellFormed, Bool.and_eq_true] at h
  obtain ⟨hv, hc, ht, hd, hs⟩ := h
  have inside := inside_of_plain rfl nests
  rw [nestingOf_cons_le] at inside
  have whole := typed_reads (Chain.of_takes (var_takes hv .plain)) hc ht hd hs inside.2
    .variableColon .variableType
  rw [VariableDefinition.outline, tokens_node, tokensOf_cons]
  exact whole.takes _

theorem variableDefinition_guarded : variableDefinition.Guarded [.mark "$"] :=
  Chain.map_guarded var_guarded.recognize _

theorem variableDefinitions_take {definitions : Delimited VariableDefinition}
    (h : VariableDefinition.listIsWellFormed definitions = true)
    (nests : (VariableDefinition.listOutline definitions).nesting ≤ maxNesting) :
    variableDefinitions.Takes [] (VariableDefinition.listOutline definitions).tokens
      definitions :=
  delimitedNode_takes rfl h nests _ variableDefinition_takes variableDefinition_guarded.led rfl rfl

theorem namedOperation_guarded : namedOperation.Guarded operationLeads :=
  Chain.map_guarded operationType_guarded.recognize _

theorem operationDefinition_guarded :
    operationDefinition.Guarded [operationLeads, [.mark "\x7b"]].flatten :=
  Parser.alt_guarded (.cons namedOperation_guarded
    (.cons ((selectionSet_guarded maxNesting).map _) .nil))

theorem operationDefinition_takes {d : OperationDefinition} (role : Role)
    (h : d.isWellFormed = true) (nests : (d.outline role).nesting ≤ maxNesting) :
    operationDefinition.Takes [] (d.outline role).tokens d := by
  obtain ⟨type, name, vars, directives, set⟩ := d
  simp only [OperationDefinition.isWellFormed, Bool.and_eq_true] at h
  obtain ⟨hs, h⟩ := h
  obtain ⟨set, rfl, hs⟩ := exists_of_filled hs
  have inside := inside_of_plain rfl nests
  simp only [nestingOf_append_le, nestingOf_cons_le, nestingOf_optional_le, nesting_present_le]
    at inside
  obtain ⟨-, -, nv, nd, ns, -⟩ := inside
  have selected := selectionSet_takes hs ns
  cases type with
  | none =>
    simp only [Bool.and_eq_true, Option.isNone_iff_eq_none] at h
    obtain ⟨rfl, rfl, rfl⟩ := h
    have leaves : (OperationDefinition.outline role ⟨none, none, none, none, .present set⟩).tokens =
        (SelectionSet.outline set).tokens := by simp [OperationDefinition.outline]
    rw [leaves]
    refine Parser.Takes.alt_cons ((selected.map _).alt_head []) fun rest hr => ?_
    have begins := selected.begins (selectionSet_guarded maxNesting).led hr
    exact namedOperation_guarded.refuses _ (begins.avoids rfl)
  | some type =>
    simp only [Bool.and_eq_true, Option.all_eq_true] at h
    obtain ⟨ht, hn, hv, hd⟩ := h
    have named := (Chain.of_takes (operationType_takes ht)).andOpt (o := name)
      (fun t hm => name_takes (hn t hm)) name_guarded.led rfl
    have taken := named.andOpt (o := vars)
      (fun v hm => variableDefinitions_take (hv v hm) (nv v hm))
      (delimited_guarded _ _ _ _).led rfl
    have whole := (andDirectives taken ((Option.all_eq_true _ _).2 hd) nd rfl).andSlot selected
      (selectionSet_guarded maxNesting).led rfl .operationSelectionSet
    have leaves : (OperationDefinition.outline role ⟨some type, name, vars, directives,
        .present set⟩).tokens = [type.keyword] ++ (name.elim [] fun t => [t]) ++
          (vars.elim [] fun v => (VariableDefinition.listOutline v).tokens) ++
            (directives.elim [] fun d => (Directives.outline d).tokens) ++
              (SelectionSet.outline set).tokens := by
      simp [OperationDefinition.outline, OperationType.outline]
    rw [leaves]
    exact (whole.takes _).alt_head _

/-! ## Executable definitions -/

theorem fragmentDefinition_takes {d : FragmentDefinition} (role : Role) (h : d.isWellFormed = true)
    (nests : (d.outline role).nesting ≤ maxNesting) :
    fragmentDefinition.Takes [] (d.outline role).tokens d := by
  obtain ⟨keyword, name, condition, directives, set⟩ := d
  simp only [FragmentDefinition.isWellFormed, Bool.and_eq_true] at h
  obtain ⟨hk, hn, hc, hd, hs⟩ := h
  obtain ⟨name, rfl, hn⟩ := exists_of_filled hn
  obtain ⟨condition, rfl, hc⟩ := exists_of_filled hc
  obtain ⟨set, rfl, hs⟩ := exists_of_filled hs
  have inside := inside_of_plain rfl nests
  simp only [nestingOf_append_le, nestingOf_cons_le, nestingOf_optional_le, nesting_present_le]
    at inside
  obtain ⟨-, -, -, nd, ns, -⟩ := inside
  have named := (Chain.of_takes (keyword_takes hk)).andSlot (nameExcept_takes hn)
    (nameExcept_guarded _).led rfl .fragmentName
  have conditioned := named.andSlot (typeCondition_takes hc) typeCondition_guarded.led rfl
    .fragmentTypeCondition
  have whole := (andDirectives conditioned hd nd rfl).andSlot (selectionSet_takes hs ns)
    (selectionSet_guarded maxNesting).led rfl .fragmentSelectionSet
  have leaves : (FragmentDefinition.outline role ⟨keyword, .present name, .present condition,
      directives, .present set⟩).tokens = [keyword] ++ [name] ++ condition.outline.tokens ++
        (directives.elim [] fun d => (Directives.outline d).tokens) ++
          (SelectionSet.outline set).tokens := by simp [FragmentDefinition.outline]
  rw [leaves]
  exact whole.takes _

theorem fragmentDefinition_guarded : fragmentDefinition.Guarded [.word "fragment"] :=
  Chain.map_guarded (keyword_guarded "fragment").recognize _

end GraphQL.Production
