import GraphQL.Proofs.Inference.Scoped
import GraphQL.Proofs.Relocation.Placeless

/-! # Inferences of relocated documents

A document that is read elsewhere, under another revision number, is resolved through the same types,
as long as the index files the same up to spans. Its entries are compared construct by construct:
`SameTypes` says that two lists of entries note the same types, each for its own definition.

* `Environment.Moved` and `Index.Moved`: the same stands around a construct and is filed, up to spans,
* `Definition.sameTypes`: a relocated definition is resolved through the same types. -/

namespace GraphQL

set_option autoImplicit false

open Recovery (Slot)

variable {α β δ : Type}

/-! ## Entries that note types -/

namespace Resolution

/-- The definition and the type that an entry notes. -/
def noted? : Resolution → Option (NodeId × Text)
  | .referencedType definition type => some (definition, type)
  | _ => none

/-- Two lists of entries note the same types, the one for the definition `id`, the other for
`id'`, and nothing for other definitions. -/
def SameTypes (id id' : NodeId) (entries entries' : List Resolution) : Prop :=
  ∃ types : List Text, entries.filterMap noted? = types.map (Prod.mk id) ∧
    entries'.filterMap noted? = types.map (Prod.mk id')

namespace SameTypes

variable {id id' : NodeId} {entries entries' rest rest' : List Resolution}

theorem silent (h : entries.filterMap noted? = []) (h' : entries'.filterMap noted? = []) :
    SameTypes id id' entries entries' := ⟨[], h, h'⟩

theorem nil : SameTypes id id' [] [] := silent rfl rfl

theorem append (h : SameTypes id id' entries entries') (h' : SameTypes id id' rest rest') :
    SameTypes id id' (entries ++ rest) (entries' ++ rest') := by
  obtain ⟨types, one, other⟩ := h
  obtain ⟨types', one', other'⟩ := h'
  exact ⟨types ++ types', by rw [List.filterMap_append, one, one', List.map_append],
    by rw [List.filterMap_append, other, other', List.map_append]⟩

/-- Entries that note nothing make no difference in front. -/
theorem behind {quiet quiet' : List Resolution} (h : SameTypes id id' entries entries')
    (one : quiet.filterMap noted? = []) (other : quiet'.filterMap noted? = []) :
    SameTypes id id' (quiet ++ entries) (quiet' ++ entries') := (silent one other).append h

theorem flatMap {part : α → β} {items : List α} {g : α → List Resolution} {g' : β → List Resolution}
    (h : ∀ a ∈ items, SameTypes id id' (g a) (g' (part a))) :
    SameTypes id id' (items.flatMap g) ((items.map part).flatMap g') := by
  induction items with
  | nil => exact nil
  | cons a items ih =>
    rw [List.forall_mem_cons] at h
    rw [List.map_cons, List.flatMap_cons, List.flatMap_cons]
    exact h.1.append (ih h.2)

theorem option {part : α → β} {o : Option α} {g : α → List Resolution} {g' : β → List Resolution}
    (h : ∀ a ∈ o, SameTypes id id' (g a) (g' (part a))) :
    SameTypes id id' (o.toList.flatMap g) ((o.map part).toList.flatMap g') := by
  cases o with
  | none => exact nil
  | some a =>
    have one : ∀ b ∈ [a], SameTypes id id' (g b) (g' (part b)) :=
      List.forall_mem_singleton.2 (h a rfl)
    exact flatMap one

theorem slot {f : Span → Span} {part : α → β} {s : Required α} {g : α → List Resolution}
    {g' : β → List Resolution} (h : ∀ a ∈ s.value?, SameTypes id id' (g a) (g' (part a))) :
    SameTypes id id' (s.value?.toList.flatMap g) ((mapSlot f part s).value?.toList.flatMap g') := by
  cases s with
  | present a => exact option (o := some a) h
  | missing gap => exact nil

end SameTypes

end Resolution

open Resolution

/-! ## What stands around a construct -/

/-- Two constructs of revisions are the same but for the spans, or there is none of either. -/
inductive Located.Moved (part : α → α) : Option (Located α) → Option (Located α) → Prop where
  | neither : Moved part none none
  | both (revision revision' : Nat) (a : α) :
    Moved part (some ⟨revision, a⟩) (some ⟨revision', part a⟩)

/-- Values of the same type up to spans are expected, with any defaults, or nothing is. -/
inductive ExpectedValue.Moved (f : Span → Span) :
    Option ExpectedValue → Option ExpectedValue → Prop where
  | neither : Moved f none none
  | both (revision revision' : Nat) (type : TypeRef) (default default' : Option (Located Value)) :
    Moved f (some ⟨⟨revision, type⟩, default⟩) (some ⟨⟨revision', type.mapSpans f⟩, default'⟩)

structure Environment.Moved (f : Span → Span) (id id' : NodeId) (env env' : Environment) : Prop where
  definition : env.definition = some id
  definition' : env'.definition = some id'
  scope : env'.scope = env.scope
  expected : ExpectedValue.Moved f env.expected env'.expected
  taken : Located.Moved (Delimited.mapSpans f (InputValueDefinition.mapSpans f)) env.taken env'.taken
  object : env'.object = env.object

/-- The first entries of all names are the same but for the spans. -/
structure Index.Moved (f : Span → Span) (i i' : Index) : Prop where
  rootType : ∀ kind, i'.rootType? kind = i.rootType? kind
  field : ∀ type name, Located.Moved (FieldDefinition.mapSpans f)
    (i.fields.membersByName type name).head? (i'.fields.membersByName type name).head?
  inputField : ∀ type name, Located.Moved (InputValueDefinition.mapSpans f)
    (i.inputFields.membersByName type name).head? (i'.inputFields.membersByName type name).head?
  directive : ∀ name, Located.Moved (DirectiveDefinition.mapSpans f)
    (i.directives.first? name) (i'.directives.first? name)

variable {f : Span → Span}

/-! ### Expectations -/

@[simp] theorem TypeRef.innermostName?_mapSpans (type : TypeRef) :
    (type.mapSpans f).innermostName? = type.innermostName? := by
  have hereditary : TypeRef.Hereditary
      (fun type => (type.mapSpans f).innermostName? = type.innermostName?)
      (fun type => (type.mapSpans f).innermostName? = type.innermostName?) := by
    refine ⟨fun _ => rfl, fun opening item closing inner => ?_, fun _ h => h, fun _ _ h => h⟩
    cases item with
    | present type => exact inner type rfl
    | missing gap => rfl
  exact hereditary.typeRef type

theorem TypeRef.item?_mapSpans (type : TypeRef) :
    (type.mapSpans f).item? = type.item?.map (TypeRef.mapSpans f) := by
  have base : (type.mapSpans f).base = type.base.mapSpans f := by cases type <;> rfl
  rw [item?, item?, base]
  cases type.base with
  | named type => rfl
  | list opening item closing =>
    rw [NullableType.mapSpans_list]
    cases item <;> rfl

namespace ExpectedValue.Moved

variable {expected expected' : Option ExpectedValue}

theorem innermostName (h : Moved f expected expected') :
    (expected'.bind fun e => e.type.value.innermostName?) =
      expected.bind fun e => e.type.value.innermostName? := by
  cases h with
  | neither => rfl
  | both revision revision' type => exact type.innermostName?_mapSpans

theorem item (h : Moved f expected expected') :
    Moved f (expected.bind item?) (expected'.bind item?) := by
  cases h with
  | neither => exact .neither
  | both revision revision' type =>
    show Moved f (type.item?.map _) ((type.mapSpans f).item?.map _)
    rw [type.item?_mapSpans]
    cases type.item? with
    | none => exact .neither
    | some item => exact .both revision revision' item none none

theorem ofSlot (revision revision' : Nat) (type : Required TypeRef) :
    Moved f (expectedOf revision type)
      (expectedOf revision' (mapSlot f (TypeRef.mapSpans f) type)) := by
  cases type with
  | present type => exact .both revision revision' type none none
  | missing gap => exact .neither

/-- What the definition of an input value expects. -/
theorem ofDefinition {d d' : Option (Located InputValueDefinition)}
    (h : Located.Moved (InputValueDefinition.mapSpans f) d d') :
    Moved f (d.bind expectedBy) (d'.bind expectedBy) := by
  cases h with
  | neither => exact .neither
  | both revision revision' d =>
    obtain ⟨description, name, colon, type, default, directives⟩ := d
    cases type with
    | present type => exact .both revision revision' type _ _
    | missing gap => exact .neither

end ExpectedValue.Moved

/-! ### Definitions of names -/

namespace Located.Moved

/-- A part of a construct that may be there. -/
theorem takenBy {d d' : Option (Located α)} {part : α → α} (h : Moved part d d')
    {arguments : α → Option (Delimited InputValueDefinition)}
    (moved : ∀ a, arguments (part a) =
      (arguments a).map (Delimited.mapSpans f (InputValueDefinition.mapSpans f))) :
    Moved (Delimited.mapSpans f (InputValueDefinition.mapSpans f))
      (d.bind fun d => Resolver.takenBy d.revision (arguments d.value))
      (d'.bind fun d => Resolver.takenBy d.revision (arguments d.value)) := by
  cases h with
  | neither => exact .neither
  | both revision revision' a =>
    show Moved _ (Resolver.takenBy revision (arguments a))
      (Resolver.takenBy revision' (arguments (part a)))
    rw [moved]
    cases arguments a with
    | none => exact .neither
    | some taken => exact .both revision revision' taken

end Located.Moved

section Definitions

variable {id id' : NodeId} {env env' : Environment} {i i' : Index}

theorem Argument.definition_moved (h : env.Moved f id id' env') (a : Argument) :
    Located.Moved (InputValueDefinition.mapSpans f) (a.definition? env)
      ((a.mapSpans f).definition? env') := by
  unfold definition?
  have taken := h.taken
  cases hTaken : env.taken with
  | none =>
    rw [hTaken] at taken
    generalize env'.taken = t' at taken
    cases taken
    exact .neither
  | some t =>
    rw [hTaken] at taken
    generalize env'.taken = t' at taken
    cases taken with
    | both revision revision' list =>
      have find : (list.mapSpans f (InputValueDefinition.mapSpans f)).items.find?
          (fun d => d.name.text == (a.mapSpans f).name.text) =
          (list.items.find? fun d => d.name.text == a.name.text).map
            (InputValueDefinition.mapSpans f) := List.find?_map
      show Located.Moved _ ((list.items.find? _).map _)
        (((list.mapSpans f (InputValueDefinition.mapSpans f)).items.find? _).map _)
      rw [find]
      cases list.items.find? fun d => d.name.text == a.name.text with
      | none => exact .neither
      | some d => exact .both revision revision' d

theorem Directive.definition_moved (h : Index.Moved f i i') (d : Directive) :
    Located.Moved (DirectiveDefinition.mapSpans f) (d.definition? i)
      ((d.mapSpans f).definition? i') := by
  have name : textOf? (d.mapSpans f).name = textOf? d.name := textOf?_mapTokenSlot f d.name
  unfold definition?
  rw [name]
  cases textOf? d.name with
  | none => exact .neither
  | some name => exact h.directive name

theorem Directive.taken_moved (h : Index.Moved f i i') (d : Directive) :
    Located.Moved (Delimited.mapSpans f (InputValueDefinition.mapSpans f)) (d.taken? i)
      ((d.mapSpans f).taken? i') := (d.definition_moved h).takenBy fun _ => rfl

theorem Field.definition_moved (hi : Index.Moved f i i') (h : env.Moved f id id' env')
    (field : Field SelectionSet) :
    Located.Moved (FieldDefinition.mapSpans f) (field.definition? i env)
      ((field.mapSpans f).definition? i' env') := by
  have name : textOf? (field.mapSpans f).name = textOf? field.name :=
    textOf?_mapTokenSlot f field.name
  unfold definition?
  rw [name, h.scope]
  cases env.scope with
  | none => exact .neither
  | some type =>
    cases textOf? field.name with
    | none => exact .neither
    | some name => exact hi.field type name

theorem Field.taken_moved (hi : Index.Moved f i i') (h : env.Moved f id id' env')
    (field : Field SelectionSet) :
    Located.Moved (Delimited.mapSpans f (InputValueDefinition.mapSpans f)) (field.taken? i env)
      ((field.mapSpans f).taken? i' env') := (field.definition_moved hi h).takenBy fun _ => rfl

theorem Field.type_moved (hi : Index.Moved f i i') (h : env.Moved f id id' env')
    (field : Field SelectionSet) : (field.mapSpans f).type? i' env' = field.type? i env := by
  have definition := field.definition_moved hi h
  unfold type?
  generalize field.definition? i env = d, (field.mapSpans f).definition? i' env' = d' at definition
  cases definition with
  | neither => rfl
  | both revision revision' d =>
    show (mapSlot f (TypeRef.mapSpans f) d.type).value?.bind TypeRef.innermostName? =
      d.type.value?.bind TypeRef.innermostName?
    rw [Slot.value?_mapSlot]
    cases d.type.value? with
    | none => rfl
    | some type => exact type.innermostName?_mapSpans

end Definitions

/-! ## Entries of constructs -/

section Entries

variable {id id' : NodeId} {env env' : Environment} {i i' : Index} {revision revision' : Nat}

theorem Environment.Moved.through (h : env.Moved f id id' env') (type : Option Text) :
    SameTypes id id' (env.through type) (env'.through type) := by
  unfold Environment.through
  rw [h.definition, h.definition']
  cases type with
  | none => exact .nil
  | some type => exact ⟨[type], rfl, rfl⟩

theorem Environment.Moved.selecting (h : env.Moved f id id' env') {type type' : Option Text}
    (same : type' = type) (set set' : Option NodeId) :
    SameTypes id id' (env.selecting type set) (env'.selecting type' set') := by
  subst same
  refine (h.through type').append (.silent ?_ ?_)
  · cases set <;> cases type' <;> rfl
  · cases set' <;> cases type' <;> rfl

theorem Environment.meeting_silent (env : Environment) (value : NodeId) :
    (env.meeting value).filterMap noted? = [] := by
  unfold meeting
  cases env.expected with
  | none => rfl
  | some expected => cases hd : expected.default <;> simp [noted?, hd]

theorem listEntries_silent (revision : Nat) (given : Option Arguments)
    (taken : Option (Located (Delimited InputValueDefinition))) :
    (listEntries revision given taken).filterMap noted? = [] := by
  cases given <;> cases taken <;> rfl

/-- What an option is recorded as notes nothing. -/
theorem optionEntries_silent {entry : α → Resolution} (quiet : ∀ a, noted? (entry a) = none)
    (o : Option α) : (o.toList.map entry).filterMap noted? = [] := by
  cases o with
  | none => rfl
  | some a => exact List.filterMap_cons_none (quiet a)

namespace Environment.Moved

theorem expecting (h : env.Moved f id id' env') {expected expected' : Option ExpectedValue}
    (moved : ExpectedValue.Moved f expected expected') :
    Environment.Moved f id id' { env with expected } { env' with expected := expected' } :=
  { h with expected := moved }

theorem inScope (h : env.Moved f id id' env') {scope scope' : Option Text} (same : scope' = scope) :
    Environment.Moved f id id' { env with scope } { env' with scope := scope' } :=
  { h with scope := same }

theorem inObject (h : env.Moved f id id' env') {object object' : Option Text}
    (same : object' = object) :
    Environment.Moved f id id' { env with object } { env' with object := object' } :=
  { h with object := same }

theorem taking (h : env.Moved f id id' env')
    {taken taken' : Option (Located (Delimited InputValueDefinition))}
    (moved : Located.Moved (Delimited.mapSpans f (InputValueDefinition.mapSpans f)) taken taken') :
    Environment.Moved f id id' { env with taken } { env' with taken := taken' } :=
  { h with taken := moved }

theorem inField (h : env.Moved f id id' env') (hi : Index.Moved f i i') (name : Text) :
    (env.inField i name).Moved f id id' (env'.inField i' name) := by
  refine h.expecting ?_
  rw [h.object]
  cases env.object with
  | none => exact .neither
  | some type => exact .ofDefinition (hi.inputField type name)

end Environment.Moved

/-! ### Values -/

theorem Value.hereditary_sameTypes (hi : Index.Moved f i i') :
    Value.Hereditary
      (fun v => ∀ env env' : Environment, env.Moved f id id' env' →
        SameTypes id id' (v.entries i revision env) ((v.mapSpans f).entries i' revision' env'))
      (fun field => ∀ env env' : Environment, env.Moved f id id' env' →
        SameTypes id id' (field.entries i revision env)
          ((field.mapSpans f).entries i' revision' env')) where
  var name env env' h := .silent (env.meeting_silent _) (env'.meeting_silent _)
  int t env env' h := .silent (env.meeting_silent _) (env'.meeting_silent _)
  float t env env' h := .silent (env.meeting_silent _) (env'.meeting_silent _)
  string t env env' h := .silent (env.meeting_silent _) (env'.meeting_silent _)
  boolean t value env env' h := .silent (env.meeting_silent _) (env'.meeting_silent _)
  null t env env' h := .silent (env.meeting_silent _) (env'.meeting_silent _)
  enum t env env' h := .silent (env.meeting_silent _) (env'.meeting_silent _)
  list items inner env env' h := by
    rw [Value.mapSpans_list, Value.entries_list, Value.entries_list]
    refine SameTypes.behind (.flatMap fun v hv => inner v hv _ _ ?_) (env.meeting_silent _)
      (env'.meeting_silent _)
    exact h.expecting h.expected.item
  object fields inner env env' h := by
    have type : env'.objectType? = env.objectType? := h.expected.innermostName
    rw [Value.mapSpans_object, Value.entries_object, Value.entries_object, type]
    refine SameTypes.behind ((h.through _).append (.flatMap fun field hf => inner field hf _ _ ?_))
      (env.meeting_silent _) (env'.meeting_silent _)
    exact h.inObject rfl
  field name colon value inner env env' h := by
    rw [ObjectField.mapSpans_mk, ObjectField.entries_mk, ObjectField.entries_mk]
    exact .slot fun v hv => inner v hv _ _ (h.inField hi name.text)

section Given

variable (hi : Index.Moved f i i') (h : env.Moved f id id' env')
include hi h

theorem Value.sameTypes (v : Value) : SameTypes id id' (v.entries i revision env)
    ((v.mapSpans f).entries i' revision' env') :=
  (Value.hereditary_sameTypes hi).value v env env' h

theorem DefaultValue.sameTypes (d : DefaultValue) : SameTypes id id' (d.entries i revision env)
    ((d.mapSpans f).entries i' revision' env') := .slot fun v _ => v.sameTypes hi h

/-! ### Arguments and directives -/

theorem Argument.sameTypes (a : Argument) : SameTypes id id' (a.entries i revision env)
    ((a.mapSpans f).entries i' revision' env') :=
  SameTypes.behind (.slot fun v _ => v.sameTypes hi (h.expecting (.ofDefinition (a.definition_moved h))))
    (optionEntries_silent (fun _ => rfl) _) (optionEntries_silent (fun _ => rfl) _)

theorem Arguments.sameTypes {taken taken' : Option (Located (Delimited InputValueDefinition))}
    (moved : Located.Moved (Delimited.mapSpans f (InputValueDefinition.mapSpans f)) taken taken')
    (a : Arguments) : SameTypes id id' (a.entries i revision env taken)
      ((Arguments.mapSpans f a).entries i' revision' env' taken') :=
  .flatMap fun a _ => a.sameTypes hi (h.taking moved)

theorem Directive.sameTypes (d : Directive) : SameTypes id id' (d.entries i revision env)
    ((d.mapSpans f).entries i' revision' env') := by
  have quiet (i : Index) (revision : Nat) (d : Directive) :
      (d.ownEntries i revision).filterMap noted? = [] := by
    unfold Directive.ownEntries
    rw [List.filterMap_append, optionEntries_silent (fun _ => rfl), listEntries_silent,
      List.append_nil]
  exact SameTypes.behind (.option fun a _ => a.sameTypes hi h (d.taken_moved hi)) (quiet i revision d)
    (quiet i' revision' _)

theorem Directives.sameTypes (directives : Directives) :
    SameTypes id id' (directives.entries i revision env)
      ((Directives.mapSpans f directives).entries i' revision' env') :=
  .flatMap fun d _ => d.sameTypes hi h

/-- Directives that may be there. -/
theorem optionalDirectives_sameTypes (directives : Option Directives) :
    SameTypes id id' (directives.toList.flatMap (Directives.entries i revision env))
      ((directives.map (Directives.mapSpans f)).toList.flatMap
        (Directives.entries i' revision' env')) :=
  .option fun ds _ => Directives.sameTypes hi h ds

end Given

/-! ### Selections -/

theorem FragmentSpread.sameTypes (hi : Index.Moved f i i') (h : env.Moved f id id' env')
    (spread : FragmentSpread) : SameTypes id id' (spread.entries i revision env)
      ((spread.mapSpans f).entries i' revision' env') := by
  have quiet (i : Index) (revision : Nat) (spread : FragmentSpread) :
      (spread.ownEntries i revision).filterMap noted? = [] := by
    unfold FragmentSpread.ownEntries
    cases spread.definition? i <;> rfl
  exact SameTypes.behind (optionalDirectives_sameTypes hi h spread.directives) (quiet i revision _)
    (quiet i' revision' _)

theorem Field.sameTypes_own (hi : Index.Moved f i i') (h : env.Moved f id id' env')
    (field : Field SelectionSet) : SameTypes id id' (field.ownEntries i revision env)
      ((field.mapSpans f).ownEntries i' revision' env') := by
  refine SameTypes.behind (SameTypes.behind (h.selecting (field.type_moved hi h) _ _) ?_ ?_) ?_ ?_
  · exact listEntries_silent _ _ _
  · exact listEntries_silent _ _ _
  · exact optionEntries_silent (fun _ => rfl) _
  · exact optionEntries_silent (fun _ => rfl) _

theorem InlineFragment.type_moved (h : env.Moved f id id' env')
    (fragment : InlineFragment SelectionSet) :
    (fragment.mapSpans f).type? env' = fragment.type? env := by
  obtain ⟨dots, condition, directives, set⟩ := fragment
  cases condition with
  | none => exact h.scope
  | some condition =>
    obtain ⟨keyword, type⟩ := condition
    cases type <;> rfl

theorem Selection.hereditary_sameTypes (hi : Index.Moved f i i') :
    Selection.Hereditary
      (fun s => ∀ env env' : Environment, env.Moved f id id' env' →
        SameTypes id id' (s.entries i revision env) ((s.mapSpans f).entries i' revision' env'))
      (fun set => ∀ env env' : Environment, env.Moved f id id' env' →
        SameTypes id id' (SelectionSet.entries i revision env set)
          (SelectionSet.entries i' revision' env' (SelectionSet.mapSpans f set))) where
  field field inner env env' h := by
    have inside : (field.inside i env).Moved f id id' ((field.mapSpans f).inside i' env') :=
      h.inScope (field.type_moved hi h)
    rw [Selection.mapSpans_field, Selection.entries, Selection.entries, Field.entries_eq,
      Field.entries_eq]
    refine (field.sameTypes_own hi h).append (.append ?_ (.append ?_ ?_))
    · exact .option fun a _ => a.sameTypes hi inside (field.taken_moved hi h)
    · exact optionalDirectives_sameTypes hi inside field.directives
    · exact .option fun set hs => inner set hs _ _ inside
  spread spread env env' h := spread.sameTypes hi h
  inline fragment inner env env' h := by
    have inside : (fragment.inside env).Moved f id id' ((fragment.mapSpans f).inside env') :=
      h.inScope (fragment.type_moved h)
    rw [Selection.mapSpans_inline, Selection.entries, Selection.entries, InlineFragment.entries_eq,
      InlineFragment.entries_eq]
    refine (h.selecting (fragment.type_moved h) _ _).append (.append ?_ ?_)
    · exact optionalDirectives_sameTypes hi inside fragment.directives
    · exact .slot fun set hs => inner set hs _ _ inside
  set set inner env env' h := by
    rw [SelectionSet.mapSpans_eq, SelectionSet.entries_eq, SelectionSet.entries_eq]
    exact .flatMap fun s hs => inner s hs env env' h

/-! ### Definitions -/

section Given

variable (hi : Index.Moved f i i') (h : env.Moved f id id' env')
include hi h

theorem SelectionSet.sameTypes (set : SelectionSet) :
    SameTypes id id' (SelectionSet.entries i revision env set)
      (SelectionSet.entries i' revision' env' (SelectionSet.mapSpans f set)) :=
  (Selection.hereditary_sameTypes hi).selectionSet set env env' h

theorem VariableDefinition.sameTypes (d : VariableDefinition) :
    SameTypes id id' (d.entries i revision env) ((d.mapSpans f).entries i' revision' env') := by
  have inside := h.expecting (.ofSlot revision revision' d.type)
  exact (SameTypes.option fun v _ => v.sameTypes hi inside).append
    (optionalDirectives_sameTypes hi inside d.directives)

theorem OperationDefinition.sameTypes (d : OperationDefinition) :
    SameTypes id id' (d.entries i revision env) ((d.mapSpans f).entries i' revision' env') := by
  have type : i'.rootType? (d.mapSpans f).kind = i.rootType? d.kind := by
    rw [d.kind_mapSpans, hi.rootType]
  have inside := h.inScope type
  refine (h.selecting type _ _).append (.append ?_ (.append ?_ ?_))
  · exact .option fun list _ => .flatMap fun v _ => v.sameTypes hi inside
  · exact optionalDirectives_sameTypes hi inside d.directives
  · exact .slot fun set _ => SelectionSet.sameTypes hi inside set

theorem FragmentDefinition.sameTypes (d : FragmentDefinition) :
    SameTypes id id' (d.entries i revision env) ((d.mapSpans f).entries i' revision' env') := by
  have type : conditionType? (d.mapSpans f).condition.value? =
      conditionType? d.condition.value? := by
    obtain ⟨keyword, name, condition, directives, set⟩ := d
    cases condition with
    | missing gap => rfl
    | present condition =>
      obtain ⟨keyword, type⟩ := condition
      cases type <;> rfl
  have inside := h.inScope type
  refine (h.selecting type _ _).append (.append ?_ ?_)
  · exact optionalDirectives_sameTypes hi inside d.directives
  · exact .slot fun set _ => SelectionSet.sameTypes hi inside set

theorem InputValueDefinition.sameTypes (d : InputValueDefinition) :
    SameTypes id id' (d.entries i revision env) ((d.mapSpans f).entries i' revision' env') := by
  have inside := h.expecting (.ofSlot revision revision' d.type)
  exact (SameTypes.option fun v _ => v.sameTypes hi inside).append
    (optionalDirectives_sameTypes hi inside d.directives)

theorem InputValueDefinition.sameTypes_list (list : Option (Delimited InputValueDefinition)) :
    SameTypes id id' (list.toList.flatMap (InputValueDefinition.listEntries i revision env))
      ((list.map (Delimited.mapSpans f (InputValueDefinition.mapSpans f))).toList.flatMap
        (InputValueDefinition.listEntries i' revision' env')) :=
  .option fun _ _ => .flatMap fun d _ => d.sameTypes hi h

theorem FieldDefinition.sameTypes (d : FieldDefinition) :
    SameTypes id id' (d.entries i revision env) ((d.mapSpans f).entries i' revision' env') :=
  (InputValueDefinition.sameTypes_list hi h d.arguments).append
    (optionalDirectives_sameTypes hi h d.directives)

theorem FieldedBody.sameTypes (body : FieldedBody) :
    SameTypes id id' (body.entries i revision env) ((body.mapSpans f).entries i' revision' env') :=
  (optionalDirectives_sameTypes hi h body.directives).append
    (.option fun _ _ => .flatMap fun d _ => d.sameTypes hi h)

theorem TypeBody.sameTypes {scalar scalar' : δ → List Resolution} {part : δ → δ}
    (hs : ∀ d, SameTypes id id' (scalar d) (scalar' (part d))) (body : TypeBody δ) :
    SameTypes id id' (body.entries i revision env scalar)
      ((body.mapSpans f part).entries i' revision' env' scalar') := by
  cases body with
  | scalar directives => exact hs directives
  | object body => exact body.sameTypes hi h
  | interface body => exact body.sameTypes hi h
  | union directives members => exact optionalDirectives_sameTypes hi h directives
  | enum directives values =>
    exact (optionalDirectives_sameTypes hi h directives).append (.option fun _ _ => .flatMap
      fun d _ => optionalDirectives_sameTypes hi h d.directives)
  | input directives fields =>
    exact (optionalDirectives_sameTypes hi h directives).append
      (InputValueDefinition.sameTypes_list hi h fields)

/-- A relocated definition is resolved through the same types. -/
theorem Definition.sameTypes (d : Definition) :
    SameTypes id id' (d.entries i revision env) ((d.mapSpans f).entries i' revision' env') := by
  cases d with
  | operation d => exact d.sameTypes hi h
  | fragment d => exact d.sameTypes hi h
  | schema d => exact optionalDirectives_sameTypes hi h d.directives
  | schemaExtension d => exact optionalDirectives_sameTypes hi h d.directives
  | type d => exact TypeBody.sameTypes hi h (optionalDirectives_sameTypes hi h) d.body
  | typeExtension d =>
    have scalar (directives : Required Directives) :
        SameTypes id id' (directives.value?.toList.flatMap (Directives.entries i revision env))
          ((mapSlot f (Directives.mapSpans f) directives).value?.toList.flatMap
            (Directives.entries i' revision' env')) := .slot fun ds _ => Directives.sameTypes hi h ds
    exact TypeBody.sameTypes hi h scalar d.body
  | directive d => exact InputValueDefinition.sameTypes_list hi h d.arguments

end Given

end Entries

end GraphQL
