import GraphQL.Document.Basic

/-! # Induction over constructs that nest

Types, values and selections hold others of their sort through slots and lists. A property is
hereditary if it passes from all parts to the whole; then it holds of every construct of the
sort. -/

namespace GraphQL

set_option autoImplicit false

open Recovery (Slot)

/-! ## Types -/

structure TypeRef.Hereditary (ofNullable : NullableType → Prop) (ofType : TypeRef → Prop) : Prop where
  named : ∀ type, ofNullable (.named type)
  list : ∀ opening (item : Required TypeRef) closing, (∀ type ∈ item.value?, ofType type) →
    ofNullable (.list opening item closing)
  nullable : ∀ type, ofNullable type → ofType (.nullable type)
  nonNull : ∀ type bang, ofNullable type → ofType (.nonNull type bang)

namespace TypeRef.Hereditary

variable {ofNullable : NullableType → Prop} {ofType : TypeRef → Prop}

mutual
theorem nullableType (h : Hereditary ofNullable ofType) : (type : NullableType) → ofNullable type
  | .named type => h.named type
  | .list opening (.present item) closing =>
    h.list opening (.present item) closing fun _ same => Option.some.inj same ▸ typeRef h item
  | .list opening (.missing gap) closing => h.list opening (.missing gap) closing nofun
theorem typeRef (h : Hereditary ofNullable ofType) : (type : TypeRef) → ofType type
  | .nullable type => h.nullable type (nullableType h type)
  | .nonNull type bang => h.nonNull type bang (nullableType h type)
end

end TypeRef.Hereditary

/-! ## Values -/

structure Value.Hereditary (ofValue : Value → Prop) (ofField : ObjectField → Prop) : Prop where
  var : ∀ name, ofValue (.var name)
  int : ∀ token, ofValue (.int token)
  float : ∀ token, ofValue (.float token)
  string : ∀ token, ofValue (.string token)
  boolean : ∀ token value, ofValue (.boolean token value)
  null : ∀ token, ofValue (.null token)
  enum : ∀ token, ofValue (.enum token)
  list : ∀ items : Delimited Value, (∀ value ∈ items.items, ofValue value) → ofValue (.list items)
  object : ∀ fields : Delimited ObjectField, (∀ field ∈ fields.items, ofField field) →
    ofValue (.object fields)
  field : ∀ name colon (value : Required Value), (∀ v ∈ value.value?, ofValue v) →
    ofField (.mk name colon value)

namespace Value.Hereditary

variable {ofValue : Value → Prop} {ofField : ObjectField → Prop}

mutual
theorem value (h : Hereditary ofValue ofField) : (value : Value) → ofValue value
  | .var name => h.var name
  | .int token => h.int token
  | .float token => h.float token
  | .string token => h.string token
  | .boolean token value => h.boolean token value
  | .null token => h.null token
  | .enum token => h.enum token
  | .list ⟨opening, items, closing⟩ => h.list ⟨opening, items, closing⟩ (values h items)
  | .object ⟨opening, fields, closing⟩ =>
    h.object ⟨opening, fields, closing⟩ (objectFields h fields)
theorem values (h : Hereditary ofValue ofField) : (values : List Value) → ∀ v ∈ values, ofValue v
  | [] => nofun
  | v :: rest => List.forall_mem_cons.2 ⟨value h v, values h rest⟩
theorem objectField (h : Hereditary ofValue ofField) : (field : ObjectField) → ofField field
  | .mk name colon (.present v) =>
    h.field name colon (.present v) fun _ same => Option.some.inj same ▸ value h v
  | .mk name colon (.missing gap) => h.field name colon (.missing gap) nofun
theorem objectFields (h : Hereditary ofValue ofField) :
    (fields : List ObjectField) → ∀ field ∈ fields, ofField field
  | [] => nofun
  | field :: rest => List.forall_mem_cons.2 ⟨objectField h field, objectFields h rest⟩
end

end Value.Hereditary

/-! ## Selections -/

structure Selection.Hereditary (ofSelection : Selection → Prop) (ofSet : SelectionSet → Prop) :
    Prop where
  field : ∀ field : Field SelectionSet, (∀ set ∈ field.selectionSet, ofSet set) →
    ofSelection (.field field)
  spread : ∀ spread, ofSelection (.spread spread)
  inline : ∀ fragment : InlineFragment SelectionSet,
    (∀ set ∈ fragment.selectionSet.value?, ofSet set) → ofSelection (.inline fragment)
  set : ∀ set : SelectionSet, (∀ selection ∈ set.items, ofSelection selection) → ofSet set

namespace Selection.Hereditary

variable {ofSelection : Selection → Prop} {ofSet : SelectionSet → Prop}

mutual
theorem selection (h : Hereditary ofSelection ofSet) : (s : Selection) → ofSelection s
  | .field ⟨fieldAlias, name, arguments, directives, none⟩ =>
    h.field ⟨fieldAlias, name, arguments, directives, none⟩ (by simp)
  | .field ⟨fieldAlias, name, arguments, directives, some set⟩ =>
    h.field ⟨fieldAlias, name, arguments, directives, some set⟩
      fun _ same => Option.some.inj same ▸ selectionSet h set
  | .spread s => h.spread s
  | .inline ⟨dots, condition, directives, .present set⟩ =>
    h.inline ⟨dots, condition, directives, .present set⟩
      fun _ same => Option.some.inj same ▸ selectionSet h set
  | .inline ⟨dots, condition, directives, .missing gap⟩ =>
    h.inline ⟨dots, condition, directives, .missing gap⟩ (by simp [Slot.value?])
theorem selections (h : Hereditary ofSelection ofSet) :
    (selections : List Selection) → ∀ s ∈ selections, ofSelection s
  | [] => nofun
  | s :: rest => List.forall_mem_cons.2 ⟨selection h s, selections h rest⟩
theorem selectionSet (h : Hereditary ofSelection ofSet) : (set : Delimited Selection) → ofSet set
  | ⟨opening, items, closing⟩ => h.set ⟨opening, items, closing⟩ (selections h items)
end

end Selection.Hereditary

end GraphQL
