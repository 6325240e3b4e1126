import GraphQL.Proofs.Document.Induction
import GraphQL.Proofs.Layout.Spelling

/-! # Types, values and selections are spelled out

The layout of a well-formed construct spells the tokens it was read from. -/

namespace GraphQL

set_option autoImplicit false

open Lexer Outline
open Layout

/-! ## Types and values -/

theorem NamedType.spells (type : NamedType) (role : Role) :
    Spells type.layout (type.outline role).tokens := by
  rw [NamedType.outline, tokens_node, tokensOf_cons, tokens_token, tokensOf_nil]
  exact Spells.token type.name

theorem TypeRef.hereditary_spells :
    TypeRef.Hereditary
      (fun type => type.isWellFormed = true → ∀ role, Spells type.layout (type.outline role).tokens)
      (fun type => type.isWellFormed = true → ∀ role, Spells type.layout (type.outline role).tokens) where
  named type _ role := type.spells role
  list opening item closing inner h role := by
    rw [NullableType.isWellFormed_list, Bool.and_eq_true, Bool.and_eq_true] at h
    obtain ⟨ho, hi, hc⟩ := h
    obtain ⟨item, rfl, hi⟩ := exists_of_filled hi
    obtain ⟨closing, rfl, hc⟩ := exists_of_filled hc
    have read := (inner item rfl hi .type).enclosed ho hc (by decide)
    rw [NullableType.outline_list]
    simpa [NullableType.layout] using read
  nullable type h wf role := h wf role
  nonNull type bang h wf role := by
    rw [TypeRef.isWellFormed, Bool.and_eq_true] at wf
    have read := (h wf.1 .type).closed wf.2 (by decide)
    simpa [TypeRef.outline, TypeRef.layout] using read

theorem TypeRef.spells {type : TypeRef} (h : type.isWellFormed = true) (role : Role) :
    Spells type.layout (type.outline role).tokens := TypeRef.hereditary_spells.typeRef type h role

theorem Variable.spells {v : Variable} (h : v.isWellFormed = true) (role : Role) :
    Spells v.layout ((Value.var v).outline role).tokens := by
  obtain ⟨dollar, name⟩ := v
  rw [Variable.isWellFormed, Bool.and_eq_true] at h
  obtain ⟨name, rfl, -⟩ := exists_of_filled h.2
  simpa [Value.outline, Variable.layout] using (Spells.token name).behindMark h.1

theorem Value.layouts_eq (values : List Value) : Value.layouts values = values.map Value.layout := by
  induction values with
  | nil => rfl
  | cons v values ih => rw [Value.layouts, ih, List.map_cons]

theorem ObjectField.layouts_eq (fields : List ObjectField) :
    ObjectField.layouts fields = fields.map ObjectField.layout := by
  induction fields with
  | nil => rfl
  | cons field fields ih => rw [ObjectField.layouts, ih, List.map_cons]

theorem Value.hereditary_spells :
    Value.Hereditary
      (fun v => v.isWellFormed = true → ∀ role, Spells v.layout (v.outline role).tokens)
      (fun f => f.isWellFormed = true → Spells f.layout f.outline.tokens) where
  var name h role := Variable.spells h role
  int t _ role := by simpa [Value.outline, Value.layout] using Spells.token t
  float t _ role := by simpa [Value.outline, Value.layout] using Spells.token t
  string t _ role := by simpa [Value.outline, Value.layout] using Spells.token t
  boolean t value _ role := by simpa [Value.outline, Value.layout] using Spells.token t
  null t _ role := by simpa [Value.outline, Value.layout] using Spells.token t
  enum t _ role := by simpa [Value.outline, Value.layout] using Spells.token t
  list items inner h role := by
    rw [Value.isWellFormed_list] at h
    rw [Value.outline_list, tokens_node, Value.layout, Value.layouts_eq]
    exact Spells.delimited h (fun v hv wf => inner v hv wf .value) (by decide)
  object fields inner h role := by
    rw [Value.isWellFormed_object] at h
    rw [Value.outline_object, tokens_node, Value.layout, ObjectField.layouts_eq]
    exact Spells.delimited h inner (by decide)
  field name colon value inner h := by
    rw [ObjectField.isWellFormed_mk, Bool.and_eq_true, Bool.and_eq_true] at h
    obtain ⟨-, hc, hv⟩ := h
    obtain ⟨colon, rfl, hc⟩ := exists_of_filled hc
    obtain ⟨value, rfl, hv⟩ := exists_of_filled hv
    have read := (Spells.token name).colon hc (inner value rfl hv .value)
    rw [ObjectField.outline_mk]
    simpa [ObjectField.layout] using read

theorem Value.spells {v : Value} (h : v.isWellFormed = true) (role : Role) :
    Spells v.layout (v.outline role).tokens := Value.hereditary_spells.value v h role

theorem DefaultValue.spells {d : DefaultValue} (h : d.isWellFormed = true) :
    Spells d.layout d.outline.tokens := by
  obtain ⟨eq, value⟩ := d
  rw [DefaultValue.isWellFormed, Bool.and_eq_true] at h
  obtain ⟨value, rfl, hv⟩ := exists_of_filled h.2
  have spaced : Spells (" " ++ value.layout) (value.outline .value).tokens :=
    (Value.spells hv .value).behindGap (by decide)
  have read : Spells ("=" ++ (" " ++ value.layout)) (eq :: (value.outline .value).tokens) :=
    spaced.behindMark h.1
  have here : Spells ("= " ++ value.layout) (eq :: (value.outline .value).tokens) := read
  simpa [DefaultValue.outline, DefaultValue.layout] using here

/-! ## Arguments and directives -/

theorem Argument.spells {a : Argument} (h : a.isWellFormed = true) :
    Spells a.layout a.outline.tokens := by
  obtain ⟨name, colon, value⟩ := a
  simp only [Argument.isWellFormed, Bool.and_eq_true] at h
  obtain ⟨-, hc, hv⟩ := h
  obtain ⟨colon, rfl, hc⟩ := exists_of_filled hc
  obtain ⟨value, rfl, hv⟩ := exists_of_filled hv
  simpa [Argument.outline, Argument.layout] using
    (Spells.token name).colon hc (Value.spells hv .value)

theorem Arguments.spells {a : Arguments} (h : Arguments.isWellFormed a = true) :
    Spells (Arguments.layout a) (Arguments.outline a).tokens := by
  rw [Arguments.outline, tokens_node]
  exact Spells.delimited h (fun _ _ => Argument.spells) (by decide)

theorem Arguments.stops (a : Arguments) : Stops (Arguments.layout a) := by
  rw [Arguments.layout, List.append_assoc]
  exact stops_head (by decide) (by decide)

theorem Directive.spells {d : Directive} (h : d.isWellFormed = true) :
    Spells d.layout d.outline.tokens := by
  obtain ⟨sign, name, arguments⟩ := d
  simp only [Directive.isWellFormed, Bool.and_eq_true, Option.all_eq_true] at h
  obtain ⟨hs, hn, ha⟩ := h
  obtain ⟨name, rfl, -⟩ := exists_of_filled hn
  have behind : Spells (Layout.optional Arguments.layout arguments)
      (arguments.elim [] fun a => (Arguments.outline a).tokens) :=
    Spells.optional fun a here => Arguments.spells (ha a here)
  have named := (Spells.token name).append behind (stops_optional fun a _ => Arguments.stops a)
  simpa [Directive.outline, Directive.layout, List.append_assoc] using named.behindMark hs

theorem Directives.spells {ds : Directives} (h : Directives.isWellFormed ds = true) :
    Spells (Directives.layout ds) (Directives.outline ds).tokens := by
  simp only [Directives.isWellFormed, Bool.and_eq_true, List.all_eq_true] at h
  rw [Directives.outline, tokens_node, tokensOf_map]
  exact Spells.separated (by decide) (by decide) fun d hd => Directive.spells (h.2 d hd)

theorem Layout.spells_directives {ds : Option Directives}
    (h : ds.all Directives.isWellFormed = true) :
    Spells (Layout.directives ds) (tokensOf (Outline.optional Directives.outline ds)) := by
  rw [tokensOf_optional]
  exact Spells.optional fun d here => Directives.spells ((Option.all_eq_true _ _).1 h d here)

/-! ## Selections -/

theorem TypeCondition.spells {c : TypeCondition} (h : c.isWellFormed = true) :
    Spells c.layout c.outline.tokens := by
  obtain ⟨keyword, type⟩ := c
  rw [TypeCondition.isWellFormed, Bool.and_eq_true] at h
  obtain ⟨type, rfl, -⟩ := exists_of_filled h.2
  have read := (Spells.word h.1).words_cons ((type.spells .plain).words_cons .words_nil)
  simpa [TypeCondition.outline, TypeCondition.layout] using read

theorem FragmentSpread.spells {s : FragmentSpread} (h : s.isWellFormed = true) (role : Role) :
    Spells s.layout (s.outline role).tokens := by
  obtain ⟨dots, name, directives⟩ := s
  simp only [FragmentSpread.isWellFormed, Bool.and_eq_true] at h
  obtain ⟨hs, -, hd⟩ := h
  have read := ((Spells.token name).behindMark hs).words_cons
    ((spells_directives hd).words_cons .words_nil)
  simpa [FragmentSpread.outline, FragmentSpread.layout] using read

/-- An alias stands in front of the name of its field. -/
theorem Alias.spells {fieldAlias : Option Alias} {a : Text} {ts : List Token}
    (h : fieldAlias.all Alias.isWellFormed = true) (ha : Spells a ts) :
    Spells (Layout.optional (fun fieldAlias => fieldAlias.layout ++ " ") fieldAlias ++ a)
      (tokensOf (Outline.optional Alias.outline fieldAlias) ++ ts) := by
  cases fieldAlias with
  | none => exact ha
  | some fieldAlias =>
    rw [Option.all_some, Alias.isWellFormed, Bool.and_eq_true] at h
    have named := (Spells.token fieldAlias.name).closed h.2 (by decide)
    have read := named.spaced (by decide) (by decide : (" " : Text) ≠ []) ha
    simpa [Alias.outline, Alias.layout, Layout.optional] using read

theorem Field.layout_eq (indent : Text) (f : Field SelectionSet) :
    f.layout indent =
      words [Layout.optional (fun fieldAlias => fieldAlias.layout ++ " ") f.fieldAlias ++
          Layout.tokenSlot f.name ++ Layout.optional Arguments.layout f.arguments,
        Layout.directives f.directives,
        Layout.optional (SelectionSet.layout indent) f.selectionSet] := by
  obtain ⟨fieldAlias, name, arguments, directives, set⟩ := f
  cases set <;> rfl

theorem InlineFragment.layout_eq (indent : Text) (f : InlineFragment SelectionSet) :
    f.layout indent =
      words ["...", Layout.optional TypeCondition.layout f.condition, Layout.directives f.directives,
        slot (SelectionSet.layout indent) f.selectionSet] := by
  obtain ⟨dots, condition, directives, set⟩ := f
  cases set <;> rfl

theorem Selection.layouts_eq (indent : Text) (selections : List Selection) :
    Selection.layouts indent selections = selections.map (Selection.layout indent) := by
  induction selections with
  | nil => rfl
  | cons s selections ih => rw [Selection.layouts, ih, List.map_cons]

theorem SelectionSet.layout_eq (indent : Text) (set : SelectionSet) :
    SelectionSet.layout indent set =
      block indent (set.items.map (Selection.layout (indent ++ step))) := by
  obtain ⟨opening, items, closing⟩ := set
  rw [SelectionSet.layout, Selection.layouts_eq]

/-- Arguments that may be lacking stand right behind what takes them. -/
theorem Arguments.spells_behind {a : Text} {ts : List Token} {arguments : Option Arguments}
    (h : arguments.all Arguments.isWellFormed = true) (ha : Spells a ts) :
    Spells (a ++ Layout.optional Arguments.layout arguments)
      (ts ++ tokensOf (Outline.optional Arguments.outline arguments)) := by
  rw [tokensOf_optional]
  refine ha.append (Spells.optional fun a here => ?_) (stops_optional fun a _ => Arguments.stops a)
  exact Arguments.spells ((Option.all_eq_true _ _).1 h a here)

theorem Selection.hereditary_spells :
    Selection.Hereditary
      (fun s => s.isWellFormed = true → ∀ indent, IsGap indent →
        Spells (s.layout indent) s.outline.tokens)
      (fun set => SelectionSet.isWellFormed set = true → ∀ indent, IsGap indent →
        Spells (SelectionSet.layout indent set) (SelectionSet.outline set).tokens) where
  field f inner h indent gap := by
    rw [Selection.isWellFormed_field] at h
    obtain ⟨fieldAlias, name, arguments, directives, set⟩ := f
    simp only [Bool.and_eq_true, Option.all_eq_true _ set] at h
    obtain ⟨hl, hn, ha, hd, hs⟩ := h
    obtain ⟨name, rfl, -⟩ := exists_of_filled hn
    have head := Arguments.spells_behind ha (Alias.spells hl (Spells.token name))
    have body : Spells (Layout.optional (SelectionSet.layout indent) set)
        (tokensOf (Outline.optional SelectionSet.outline set)) := by
      rw [tokensOf_optional]
      exact Spells.optional fun x here => inner x here (hs x here) indent gap
    have read := head.words_cons ((spells_directives hd).words_cons (body.words_cons .words_nil))
    rw [Selection.layout, Selection.outline, Field.layout_eq, Field.outline_eq]
    simpa only [tokenSlot_present, tokens_node, tokensOf_append, tokensOf_cons, tokens_presentToken,
      List.append_assoc, List.cons_append, List.nil_append, List.append_nil] using read
  spread s h indent gap := FragmentSpread.spells h .selection
  inline f inner h indent gap := by
    rw [Selection.isWellFormed_inline] at h
    obtain ⟨dots, condition, directives, set⟩ := f
    simp only [Bool.and_eq_true, Option.all_eq_true _ condition] at h
    obtain ⟨hs, hc, hd, hset⟩ := h
    obtain ⟨set, rfl, hset⟩ := exists_of_filled hset
    have conditional : Spells (Layout.optional TypeCondition.layout condition)
        (tokensOf (Outline.optional TypeCondition.outline condition)) := by
      rw [tokensOf_optional]
      exact Spells.optional fun c here => TypeCondition.spells (hc c here)
    have body := inner set rfl hset indent gap
    have read := (Spells.mark hs).words_cons (conditional.words_cons
      ((spells_directives hd).words_cons (body.words_cons .words_nil)))
    rw [Selection.layout, Selection.outline, InlineFragment.layout_eq, InlineFragment.outline_eq]
    simpa only [slot_present, tokens_node, tokensOf_append, tokensOf_cons, tokens_token, tokensOf_nil,
      tokens_present, List.append_assoc, List.cons_append, List.nil_append, List.append_nil] using read
  set set inner h indent gap := by
    rw [SelectionSet.isWellFormed_eq] at h
    obtain ⟨opening, items, closing⟩ := set
    simp only [Delimited.isWellFormed, Bool.and_eq_true, List.all_eq_true] at h
    obtain ⟨ho, hi, hc⟩ := h
    obtain ⟨closing, rfl, hc⟩ := exists_of_filled hc
    have read := Spells.block ho gap (fun s hs => inner s hs (hi s hs) _ (isGap_step gap)) hc
    rw [SelectionSet.layout_eq, SelectionSet.outline_eq, tokens_node]
    simpa [delimited] using read

theorem SelectionSet.spells {set : SelectionSet} (h : SelectionSet.isWellFormed set = true)
    {indent : Text} (gap : IsGap indent) :
    Spells (SelectionSet.layout indent set) (SelectionSet.outline set).tokens :=
  Selection.hereditary_spells.selectionSet set h indent gap

end GraphQL
