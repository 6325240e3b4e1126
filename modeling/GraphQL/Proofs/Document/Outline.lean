import GraphQL.Document.Walk

/-! # Outlines of constructs that nest

The outlines of types, values and selections are defined by recursion over their parts. Here they
are told by the same shapes as all other outlines. The leaves of a shape are those of its parts. -/

namespace GraphQL

set_option autoImplicit false

open Outline

/-- A function that goes through a list item by item maps it. -/
theorem eq_map_of_cons {α β : Type} {f : α → β} {all : List α → List β} (nil : all [] = [])
    (cons : ∀ a rest, all (a :: rest) = f a :: all rest) (items : List α) :
    all items = items.map f := by
  induction items with
  | nil => exact nil
  | cons a rest ih => rw [cons, ih, List.map_cons]

/-! ## Types and values -/

theorem NullableType.outline_list (role : Role) (opening : Token) (item : Required TypeRef)
    (closing : Required Token) :
    (NullableType.list opening item closing).outline role =
      .node role (.type (.nullable (.list opening item closing)))
        [.token opening, single (TypeRef.outline .type) item, tokenSlot closing] := by
  cases item <;> rfl

theorem Value.outlines_eq (values : List Value) :
    Value.outlines values = values.map (Value.outline .value) :=
  eq_map_of_cons rfl (fun _ _ => rfl) values

theorem ObjectField.outlines_eq (fields : List ObjectField) :
    ObjectField.outlines fields = fields.map ObjectField.outline :=
  eq_map_of_cons rfl (fun _ _ => rfl) fields

theorem Value.outline_list (role : Role) (items : Delimited Value) :
    (Value.list items).outline role =
      .node role (.value (.list items)) (delimited (Value.outline .value) items) := by
  obtain ⟨opening, items, closing⟩ := items
  rw [delimited, ← Value.outlines_eq]
  rfl

theorem Value.outline_object (role : Role) (fields : Delimited ObjectField) :
    (Value.object fields).outline role =
      .node role (.value (.object fields)) (delimited ObjectField.outline fields) := by
  obtain ⟨opening, fields, closing⟩ := fields
  rw [delimited, ← ObjectField.outlines_eq]
  rfl

theorem ObjectField.outline_mk (name : Token) (colon : Required Token) (value : Required Value) :
    (ObjectField.mk name colon value).outline =
      .node .plain (.objectField (.mk name colon value))
        [.token name, tokenSlot colon, single (Value.outline .value) value] := by
  cases value <;> rfl

/-! ## Selections -/

theorem Field.outline_eq (role : Role) (field : Field SelectionSet) :
    Field.outline role field =
      .node role (.field field) (optional Alias.outline field.fieldAlias ++ tokenSlot field.name ::
        (optional Arguments.outline field.arguments ++
          (optional Directives.outline field.directives ++
            optional SelectionSet.outline field.selectionSet))) := by
  obtain ⟨fieldAlias, name, arguments, directives, set⟩ := field
  cases set <;> rfl

theorem InlineFragment.outline_eq (role : Role) (fragment : InlineFragment SelectionSet) :
    InlineFragment.outline role fragment =
      .node role (.inline fragment) (.token fragment.dots ::
        (optional TypeCondition.outline fragment.condition ++
          (optional Directives.outline fragment.directives ++
            [single SelectionSet.outline fragment.selectionSet]))) := by
  obtain ⟨dots, condition, directives, set⟩ := fragment
  cases set <;> rfl

theorem Selection.outlines_eq (selections : List Selection) :
    Selection.outlines selections = selections.map Selection.outline :=
  eq_map_of_cons rfl (fun _ _ => rfl) selections

theorem SelectionSet.outline_eq (set : SelectionSet) :
    SelectionSet.outline set = .node .plain (.selectionSet set) (delimited Selection.outline set) := by
  obtain ⟨opening, selections, closing⟩ := set
  rw [delimited, ← Selection.outlines_eq]
  rfl

/-! ## Leaves -/

namespace Outline

variable {α : Type}

@[simp] theorem tokens_token (t : Token) : (Outline.token t).tokens = [t] := by rw [tokens]

@[simp] theorem tokens_node (role : Role) (n : Node) (parts : List Outline) :
    (Outline.node role n parts).tokens = tokensOf parts := by rw [tokens]

@[simp] theorem tokensOf_nil : tokensOf [] = [] := by rw [tokensOf]

@[simp] theorem tokensOf_cons (o : Outline) (os : List Outline) :
    tokensOf (o :: os) = o.tokens ++ tokensOf os := by rw [tokensOf]

@[simp] theorem tokensOf_append (os rest : List Outline) :
    tokensOf (os ++ rest) = tokensOf os ++ tokensOf rest := by
  induction os with
  | nil => rfl
  | cons o os ih => rw [List.cons_append, tokensOf_cons, ih, tokensOf_cons, List.append_assoc]

@[simp] theorem tokensOf_map (outline : α → Outline) (as : List α) :
    tokensOf (as.map outline) = as.flatMap fun a => (outline a).tokens := by
  induction as with
  | nil => rfl
  | cons a as ih => rw [List.map_cons, tokensOf_cons, ih, List.flatMap_cons]

@[simp] theorem tokensOf_flatMap (outlines : α → List Outline) (as : List α) :
    tokensOf (as.flatMap outlines) = as.flatMap fun a => tokensOf (outlines a) := by
  induction as with
  | nil => rfl
  | cons a as ih => rw [List.flatMap_cons, tokensOf_append, ih, List.flatMap_cons]

@[simp] theorem tokens_present (outline : α → Outline) (a : α) :
    (single outline (.present a)).tokens = (outline a).tokens := by
  simp [single, slot, tokens]

@[simp] theorem tokens_presentToken (t : Token) : (tokenSlot (.present t)).tokens = [t] := by
  simp [tokenSlot]

@[simp] theorem tokensOf_optional (outline : α → Outline) (a : Option α) :
    tokensOf (optional outline a) = a.elim [] fun a => (outline a).tokens := by
  cases a <;> simp [optional]

@[simp] theorem tokensOf_optionalToken (t : Option Token) :
    tokensOf (optionalToken t) = t.elim [] fun t => [t] := by
  simp [optionalToken]

end Outline

end GraphQL
