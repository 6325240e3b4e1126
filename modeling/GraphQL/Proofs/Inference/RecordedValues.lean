import GraphQL.Proofs.Inference.Records

/-! # Values, arguments and directives are resolved from what stands around them

* `Value.hereditary_records`: a value is of the type that is expected, and so are the values in it,
* `Records.giver`: a node that gives arguments resolves its argument list before the walk enters it,
  so that every argument is resolved in what its own field or directive takes,
* `Directive.records` for directives with their arguments. -/

namespace GraphQL

set_option autoImplicit false

open Outline Resolver

variable {index : Index} {revision : Nat}

/-! ## Values -/

namespace Resolver

variable (r : Resolver)

theorem meetValue_inference (value : NodeId) :
    (r.meetValue value).inference = r.inference.fileAll (r.env.meeting value) := by
  unfold meetValue Environment.meeting env
  dsimp only
  cases innermost? r.expectations with
  | none => rfl
  | some expected =>
    obtain ⟨type, default⟩ := expected
    cases default <;> rfl

theorem meetValue_env (value : NodeId) : (r.meetValue value).env = r.env :=
  env_congr (r.meetValue_surroundings value) (r.meetValue_definition value)

theorem reference_inference (name : Text) :
    (r.reference name).inference = r.inference.fileAll (r.env.through (some name)) := by
  unfold reference Environment.through env
  dsimp only
  cases r.definition <;> rfl

theorem reference_env (name : Text) : (r.reference name).env = r.env :=
  env_congr (r.reference_surroundings name) (r.reference_definition name)

theorem through_none (env : Environment) : env.through none = [] := by
  unfold Environment.through
  cases env.definition <;> rfl

theorem selecting_none (env : Environment) (set : Option NodeId) : env.selecting none set = [] := by
  unfold Environment.selecting Environment.through
  cases env.definition <;> cases set <;> rfl

theorem enterObject_inference :
    r.enterObject.inference = r.inference.fileAll (r.env.through r.env.objectType?) := by
  have type : r.env.objectType? =
    (innermost? r.expectations).bind fun expected => expected.type.value.innermostName? := rfl
  unfold enterObject
  rw [← type]
  cases r.env.objectType? with
  | none =>
    rw [through_none]
    rfl
  | some name => exact r.reference_inference name

theorem enterObject_env : r.enterObject.env = { r.env with object := r.env.objectType? } := by
  have type : r.env.objectType? =
    (innermost? r.expectations).bind fun expected => expected.type.value.innermostName? := rfl
  unfold enterObject
  rw [← type]
  cases r.env.objectType? with
  | none => rfl
  | some name =>
    show ({ (r.reference name).env with object := some name } : Environment) = _
    rw [reference_env]

end Resolver

theorem Environment.list?_through (env : Environment) (type : Option Text) :
    (env.through type).filterMap Resolution.list? = [] := by
  unfold Environment.through
  cases env.definition <;> cases type <;> rfl

theorem Environment.list?_selecting (env : Environment) (type : Option Text) (set : Option NodeId) :
    (env.selecting type set).filterMap Resolution.list? = [] := by
  unfold Environment.selecting
  rw [List.filterMap_append, env.list?_through]
  cases set <;> cases type <;> rfl

theorem Environment.list?_meeting (env : Environment) (value : NodeId) :
    (env.meeting value).filterMap Resolution.list? = [] := by
  unfold Environment.meeting
  cases env.expected with
  | none => rfl
  | some expected =>
    obtain ⟨type, default⟩ := expected
    cases default <;> rfl

/-- A value without values inside. -/
theorem Value.records_atom {v : Value} {parts : List Outline}
    (enter : ∀ r : Resolver, r.enter index revision (.value v) = r)
    (h : Records index revision parts fun _ => []) :
    Records index revision [.node .value (.value v) parts] fun env =>
      env.meeting ((Node.value v).id revision) := by
  have enters : Enters index revision .value (.value v)
      (fun env => env.meeting ((Node.value v).id revision)) id := by
    rintro r s rfl
    rw [enter]
    exact ⟨r.meetValue_inference _, r.meetValue_env _⟩
  exact (Records.node (by decide) rfl enters (fun env => env.list?_meeting _) h).congr
    fun env => List.append_nil _

theorem Value.entriesOf_eq (env : Environment) (values : List Value) :
    Value.entriesOf index revision env values = values.flatMap (Value.entries index revision env) := by
  induction values with
  | nil => rfl
  | cons v values ih => rw [Value.entriesOf, ih, List.flatMap_cons]

theorem ObjectField.entriesOf_eq (env : Environment) (fields : List ObjectField) :
    ObjectField.entriesOf index revision env fields =
      fields.flatMap (ObjectField.entries index revision env) := by
  induction fields with
  | nil => rfl
  | cons field fields ih => rw [ObjectField.entriesOf, ih, List.flatMap_cons]

theorem Value.entries_list (env : Environment) (items : Delimited Value) :
    (Value.list items).entries index revision env =
      env.meeting ((Node.value (.list items)).id revision) ++
        items.items.flatMap (Value.entries index revision
          { env with expected := env.expected.bind ExpectedValue.item? }) := by
  obtain ⟨opening, items, closing⟩ := items
  rw [Value.entries, entriesOf_eq]

theorem Value.entries_object (env : Environment) (fields : Delimited ObjectField) :
    (Value.object fields).entries index revision env =
      env.meeting ((Node.value (.object fields)).id revision) ++ (env.through env.objectType? ++
        fields.items.flatMap (ObjectField.entries index revision
          { env with object := env.objectType? })) := by
  obtain ⟨opening, fields, closing⟩ := fields
  rw [Value.entries, ObjectField.entriesOf_eq]

theorem ObjectField.entries_mk (env : Environment) (name : Token) (colon : Required Token)
    (value : Required Value) : (ObjectField.mk name colon value).entries index revision env =
      value.value?.toList.flatMap (Value.entries index revision (env.inField index name.text)) := by
  cases value with
  | missing gap => rfl
  | present v =>
    rw [ObjectField.entries]
    simp [Recovery.Slot.value?]

theorem Value.hereditary_records : Value.Hereditary
    (fun v => Records index revision [v.outline .value] fun env => v.entries index revision env)
    (fun field => Records index revision [field.outline] fun env =>
      field.entries index revision env) where
  var := fun name => records_atom (fun _ => rfl)
    ((Records.token name.dollar).silent_cons (Records.tokenSlot name.name))
  int := fun t => records_atom (fun _ => rfl) (Records.token t)
  float := fun t => records_atom (fun _ => rfl) (Records.token t)
  string := fun t => records_atom (fun _ => rfl) (Records.token t)
  boolean := fun t _ => records_atom (fun _ => rfl) (Records.token t)
  null := fun t => records_atom (fun _ => rfl) (Records.token t)
  enum := fun t => records_atom (fun _ => rfl) (Records.token t)
  list := fun items h => by
    have enters : Enters index revision .value (.value (.list items))
        (fun env => env.meeting ((Node.value (.list items)).id revision))
        (fun env => { env with expected := env.expected.bind ExpectedValue.item? }) := by
      rintro r s rfl
      refine ⟨r.meetValue_inference _, ?_⟩
      rw [← r.meetValue_env ((Node.value (.list items)).id revision)]
      rfl
    rw [Value.outline_list]
    refine (Records.node (by decide) rfl enters (fun env => env.list?_meeting _)
      (Records.delimited h)).congr fun env => ?_
    rw [Value.entries_list]
  object := fun fields h => by
    have enters : Enters index revision .value (.value (.object fields))
        (fun env => env.meeting ((Node.value (.object fields)).id revision) ++
          env.through env.objectType?)
        (fun env => { env with object := env.objectType? }) := by
      rintro r s rfl
      show (r.meetValue _).enterObject.inference = _ ∧ (r.meetValue _).enterObject.env = _
      rw [enterObject_inference, enterObject_env, meetValue_env, meetValue_inference,
        Inference.fileAll_append]
      exact ⟨rfl, rfl⟩
    have none (env : Environment) : (env.meeting ((Node.value (.object fields)).id revision) ++
        env.through env.objectType?).filterMap Resolution.list? = [] := by
      rw [List.filterMap_append, env.list?_meeting, env.list?_through, List.append_nil]
    rw [Value.outline_object]
    refine (Records.node (by decide) rfl enters none (Records.delimited h)).congr fun env => ?_
    rw [Value.entries_object, List.append_assoc]
  field := fun name colon value h => by
    have enters : Enters index revision .plain (.objectField (.mk name colon value)) (fun _ => [])
        (fun env => env.inField index name.text) := by
      rintro r s rfl
      exact ⟨rfl, rfl⟩
    rw [ObjectField.outline_mk]
    refine (Records.node (by decide) rfl enters (fun _ => rfl) ((Records.token name).silent_cons
      ((Records.tokenSlot colon).silent_cons (Records.single h)))).congr fun env => ?_
    rw [ObjectField.entries_mk, List.nil_append]

theorem Value.records_slot (value : Required Value) :
    Records index revision [single (Value.outline .value) value] fun env =>
      value.value?.toList.flatMap (Value.entries index revision env) :=
  Records.single fun v _ => Value.hereditary_records.value v

theorem DefaultValue.records (default : DefaultValue) :
    Records index revision [default.outline] fun env => default.entries index revision env :=
  Records.plainNode (by decide) (by decide) rfl (fun _ => rfl)
    ((Records.token default.eq).silent_cons (Value.records_slot default.value))

/-! ## Arguments and directives -/

theorem Argument.records (argument : Argument) :
    Records index revision [argument.outline] fun env => argument.entries index revision env := by
  have enters : Enters index revision .plain (.argument argument)
      (fun env => (argument.definition? env).toList.map
        (.argument ((Node.argument argument).id revision)))
      (fun env => { env with expected := (argument.definition? env).bind expectedBy }) := by
    rintro r s rfl
    have found : argument.definition? r.env = (innermost? r.argumentScopes).bind fun taken =>
        (taken.value.items.find? fun d => d.name.text == argument.name.text).map fun d =>
          (⟨taken.revision, d⟩ : Located InputValueDefinition) := rfl
    show (r.enterArgument revision argument).inference =
        r.inference.fileAll ((argument.definition? r.env).toList.map _) ∧
      (r.enterArgument revision argument).env =
        { r.env with expected := (argument.definition? r.env).bind expectedBy }
    unfold enterArgument
    rw [← found]
    cases argument.definition? r.env with
    | none => exact ⟨rfl, rfl⟩
    | some d => exact ⟨rfl, rfl⟩
  have none (env : Environment) : ((argument.definition? env).toList.map
      (Resolution.argument ((Node.argument argument).id revision))).filterMap Resolution.list? = [] := by
    cases argument.definition? env <;> rfl
  exact Records.node (by decide) rfl enters none ((Records.token argument.name).silent_cons
    ((Records.tokenSlot argument.colon).silent_cons (Value.records_slot argument.value)))

/-- A walk over an argument list that is resolved to what may be given. -/
theorem Arguments.walk {arguments : Arguments} {s : Resolver}
    {taken : Option (Located (Delimited InputValueDefinition))}
    (resolved : s.inference.argumentLists.get? ((Node.arguments arguments).id revision) = taken)
    (fresh : s.Fresh revision (Outline.delimited Argument.outline arguments)) :
    ((Arguments.outline arguments).events.foldl (step index revision) s).inference =
      s.inference.fileAll (Arguments.entries index revision s.env taken arguments) := by
  have parts : Records index revision (Outline.delimited Argument.outline arguments) fun env =>
      arguments.items.flatMap (Argument.entries index revision env) :=
    Records.delimited fun argument _ => argument.records
  have around :
      (s.enter index revision (.arguments arguments)).env = { s.env with taken := taken } := by
    rw [← resolved]
    rfl
  rw [Arguments.outline, foldl_node, List.foldl_append]
  show (Resolver.leave (.arguments arguments) _).inference = _
  rw [leave_inference, Arguments.entries, ← around]
  exact parts.walk (s.enter index revision (.arguments arguments)) ⟨fresh.nodup, fresh.unresolved⟩

theorem argumentIds_given (arguments : Arguments) :
    argumentIds revision (Outline.optional Arguments.outline (some arguments)) =
      (Node.arguments arguments).id revision ::
        argumentIds revision (Outline.delimited Argument.outline arguments) :=
  argumentIds_node .plain (.arguments arguments) _

namespace Records

variable {given : Option Arguments} {taken : Option (Located (Delimited InputValueDefinition))}
  {post : List Outline} {g : Environment → List Resolution}

theorem lists_given (env : Environment) :
    (given.toList.flatMap (Arguments.entries index revision env taken)).filterMap
        Resolution.list? ⊆
      argumentIds revision (Outline.optional Arguments.outline given) := by
  cases given with
  | none => exact List.nil_subset _
  | some arguments =>
    have parts : Records index revision (Outline.delimited Argument.outline arguments) fun env =>
        arguments.items.flatMap (Argument.entries index revision env) :=
      Records.delimited fun argument _ => argument.records
    rw [argumentIds_given, Option.toList_some, List.flatMap_cons, List.flatMap_nil, List.append_nil]
    exact List.subset_cons_of_subset _ (parts.lists { env with taken := taken })

/-- A walk over an argument list that is resolved to what may be given, and over what stands behind
it. -/
theorem walk_given (h : Records index revision post g) {s : Resolver}
    (nodup : (argumentIds revision (Outline.optional Arguments.outline given ++ post)).Nodup)
    (resolved : ∀ a, given = some a →
      s.inference.argumentLists.get? ((Node.arguments a).id revision) = taken)
    (others : ∀ id ∈ argumentIds revision (Outline.optional Arguments.outline given ++ post),
      (∀ a, given = some a → id ≠ (Node.arguments a).id revision) →
        s.inference.argumentLists.get? id = none) :
    ((eventsOf (Outline.optional Arguments.outline given ++ post)).foldl (step index revision)
      s).inference = s.inference.fileAll
        (given.toList.flatMap (Arguments.entries index revision s.env taken) ++ g s.env) := by
  cases given with
  | none => exact h.walk s ⟨nodup, fun id hid => others id hid fun _ ha => nomatch ha⟩
  | some arguments =>
    have lists : ((some arguments).toList.flatMap
        (Arguments.entries index revision s.env taken)).filterMap Resolution.list? ⊆
      argumentIds revision (Outline.optional Arguments.outline (some arguments)) := lists_given s.env
    rw [argumentIds_append] at nodup others
    obtain ⟨first, later, apart⟩ := List.nodup_append.1 nodup
    have other : ∀ id ∈ argumentIds revision (Outline.delimited Argument.outline arguments) ++
        argumentIds revision post, s.inference.argumentLists.get? id = none := by
      rw [argumentIds_given, List.cons_append] at nodup others
      intro id hid
      refine others id (List.mem_cons_of_mem _ hid) fun a ha same => ?_
      cases ha
      exact (List.nodup_cons.1 nodup).1 (same ▸ hid)
    rw [List.forall_mem_append] at other
    have alone : s.Fresh revision (Outline.delimited Argument.outline arguments) := by
      rw [argumentIds_given] at first
      exact ⟨first.of_cons, other.1⟩
    have inner : ∀ e ∈ eventsOf (Outline.optional Arguments.outline (some arguments)),
        e.isInner = true :=
      AllGenuine.inner _ (allGenuine_optional.2 fun a _ => Arguments.genuine a)
    have walked : ((eventsOf (Outline.optional Arguments.outline (some arguments))).foldl
        (step index revision) s).inference = s.inference.fileAll
          ((some arguments).toList.flatMap (Arguments.entries index revision s.env taken)) := by
      rw [Outline.optional, eventsOf_singleton, Arguments.walk (resolved arguments rfl) alone,
        Option.toList_some, List.flatMap_cons, List.flatMap_nil, List.append_nil]
    have fresh : ((eventsOf (Outline.optional Arguments.outline (some arguments))).foldl
        (step index revision) s).Fresh revision post := by
      refine ⟨later, fun id hid => ?_⟩
      rw [walked, Inference.argumentLists_fileAll]
      · exact other.2 id hid
      · exact fun own => apart id (lists own) id hid rfl
    rw [eventsOf_append, List.foldl_append, h.walk _ fresh, walked, env_foldl inner,
      Inference.fileAll_append]

theorem list?_listEntries :
    (listEntries revision given taken).filterMap Resolution.list? ⊆
      argumentIds revision (Outline.optional Arguments.outline given) := by
  cases given with
  | none => exact List.nil_subset _
  | some arguments =>
    rw [argumentIds_given]
    cases taken with
    | none => exact List.nil_subset _
    | some taken => exact List.cons_subset_cons _ (List.nil_subset _)

/-- The entries of a node that gives arguments resolve its argument list. -/
theorem argumentLists_own {before after : List Resolution} {arguments : Arguments} {i : Inference}
    (hb : before.filterMap Resolution.list? = []) (ha : after.filterMap Resolution.list? = [])
    (unresolved : i.argumentLists.get? ((Node.arguments arguments).id revision) = none) :
    (i.fileAll (before ++ (listEntries revision (some arguments) taken ++ after))).argumentLists.get?
      ((Node.arguments arguments).id revision) = taken := by
  rw [Inference.fileAll_append, Inference.fileAll_append,
    Inference.argumentLists_fileAll (by simp [ha])]
  have first : (i.fileAll before).argumentLists.get? ((Node.arguments arguments).id revision) =
      none := by
    rw [Inference.argumentLists_fileAll (by simp [hb]), unresolved]
  cases taken with
  | none => exact first
  | some taken => exact (Table.get?_insert _ _ _ _).trans (if_pos rfl)

/-- They resolve no other argument list. -/
theorem argumentLists_own_other {before after : List Resolution} {id : NodeId} (i : Inference)
    (hb : before.filterMap Resolution.list? = []) (ha : after.filterMap Resolution.list? = [])
    (other : ∀ a, given = some a → id ≠ (Node.arguments a).id revision) :
    (i.fileAll (before ++ (listEntries revision given taken ++ after))).argumentLists.get? id =
      i.argumentLists.get? id := by
  refine Inference.argumentLists_fileAll ?_ i
  rw [List.filterMap_append, List.filterMap_append, hb, ha, List.nil_append, List.append_nil]
  cases given with
  | none => exact List.not_mem_nil
  | some arguments =>
    cases taken with
    | none => exact List.not_mem_nil
    | some taken =>
      intro hid
      exact other arguments rfl (List.mem_singleton.1 hid)

/-- A node that gives arguments resolves its argument list itself, before the list is walked. -/
theorem giver {role : Role} {n : Node} {pre : List Outline}
    {before after : Environment → List Resolution} {inside : Environment → Environment}
    {taken : Environment → Option (Located (Delimited InputValueDefinition))}
    (plain : role ≠ .definition) (other : n.argumentsId? revision = none)
    (enter : Enters index revision role n
      (fun env => before env ++ (listEntries revision given (taken env) ++ after env)) inside)
    (hb : ∀ env, (before env).filterMap Resolution.list? = [])
    (ha : ∀ env, (after env).filterMap Resolution.list? = [])
    (silent : Records index revision pre fun _ => []) (h : Records index revision post g) :
    Records index revision
      [.node role n (pre ++ (Outline.optional Arguments.outline given ++ post))] fun env =>
        (before env ++ (listEntries revision given (taken env) ++ after env)) ++
          (given.toList.flatMap (Arguments.entries index revision (inside env) (taken env)) ++
            g (inside env)) := by
  have ids : argumentIds revision
      [.node role n (pre ++ (Outline.optional Arguments.outline given ++ post))] =
      argumentIds revision pre ++ (argumentIds revision (Outline.optional Arguments.outline given) ++
        argumentIds revision post) := by
    rw [argumentIds_node, other, Option.toList_none, List.nil_append, argumentIds_append,
      argumentIds_append]
  refine of_parts plain ?_ enter (fun env => ?_) fun r s fresh same around => ?_
  · rw [eventsOf_append, eventsOf_append, List.forall_mem_append, List.forall_mem_append]
    exact ⟨silent.inner, AllGenuine.inner _ (allGenuine_optional.2 fun a _ => Arguments.genuine a),
      h.inner⟩
  · rw [ids]
    refine List.subset_append_of_subset_right _ ?_
    simp only [List.filterMap_append, hb, ha, List.nil_append, List.append_nil]
    exact List.append_subset.2 ⟨List.subset_append_of_subset_left _ list?_listEntries,
      List.append_subset.2 ⟨List.subset_append_of_subset_left _ (lists_given _),
        List.subset_append_of_subset_right _ (h.lists _)⟩⟩
  · obtain ⟨nodup, unresolved⟩ := fresh
    rw [ids] at nodup unresolved
    obtain ⟨first, later, apart⟩ := List.nodup_append.1 nodup
    rw [List.forall_mem_append] at unresolved
    have others {id : NodeId} (before : r.inference.argumentLists.get? id = none)
        (other : ∀ a, given = some a → id ≠ (Node.arguments a).id revision) :
        s.inference.argumentLists.get? id = none := by
      rw [same, argumentLists_own_other r.inference (hb _) (ha _) other, before]
    have own (a : Arguments) (is : given = some a) : (Node.arguments a).id revision ∈
        argumentIds revision (Outline.optional Arguments.outline given) := by
      rw [is, argumentIds_given]
      exact List.mem_cons_self
    have started : s.Fresh revision pre := by
      refine ⟨first, fun id hid => others (unresolved.1 id hid) fun a ha same => ?_⟩
      exact apart id hid _ (List.mem_append_left _ (own a ha)) same
    have quiet := silent.walk s started
    rw [Inference.fileAll_nil] at quiet
    have stay : ((eventsOf pre).foldl (step index revision) s).env = s.env :=
      env_foldl silent.inner s
    rw [eventsOf_append, List.foldl_append, ← quiet, ← around, ← stay]
    refine h.walk_given ?_ ?_ ?_
    · rwa [argumentIds_append]
    · rintro a rfl
      rw [quiet, same]
      exact argumentLists_own (hb _) (ha _) (unresolved.2 _ (List.mem_append_left _ (own a rfl)))
    · intro id hid other
      rw [quiet]
      rw [argumentIds_append] at hid
      exact others (unresolved.2 id hid) other

end Records

/-- What a field or directive that may be defined resolves its argument list to. -/
theorem recordArguments_inference (given : Option Arguments)
    (taken : Option (Located (Delimited InputValueDefinition))) (r : Resolver) :
    (r.recordArguments revision given taken).inference =
      r.inference.fileAll (listEntries revision given taken) := by
  cases given <;> cases taken <;> rfl

theorem recordArguments_env (given : Option Arguments)
    (taken : Option (Located (Delimited InputValueDefinition))) (r : Resolver) :
    (r.recordArguments revision given taken).env = r.env :=
  env_congr (r.recordArguments_surroundings revision given taken)
    (r.recordArguments_definition revision given taken)

theorem Directive.enters (directive : Directive) :
    Enters index revision .plain (.directive directive)
      (fun _ => (directive.definition? index).toList.map
          (.directive ((Node.directive directive).id revision)) ++
        (listEntries revision directive.arguments (directive.taken? index) ++ [])) id := by
  rintro r s rfl
  have found : directive.definition? index = (textOf? directive.name).bind index.directives.first? :=
    rfl
  show (r.enterDirective index revision directive).inference = _ ∧
    (r.enterDirective index revision directive).env = r.env
  unfold enterDirective Directive.taken?
  rw [← found, List.append_nil, Inference.fileAll_append]
  cases directive.definition? index with
  | none =>
    refine ⟨?_, rfl⟩
    cases directive.arguments <;> rfl
  | some d => exact ⟨recordArguments_inference _ _ _, recordArguments_env _ _ _⟩

theorem Directive.records (directive : Directive) :
    Records index revision [directive.outline] fun env => directive.entries index revision env := by
  have none (env : Environment) : ((directive.definition? index).toList.map
      (Resolution.directive ((Node.directive directive).id revision))).filterMap
        Resolution.list? = [] := by
    cases directive.definition? index <;> rfl
  have parts := Records.giver (by decide) rfl directive.enters none (fun _ => rfl)
    ((Records.token directive.sign).silent_cons (Records.tokenSlot directive.name)) .nil
  have outline : directive.outline = .node .plain (.directive directive)
      ([.token directive.sign, tokenSlot directive.name] ++
        (optional Arguments.outline directive.arguments ++ [])) := by
    rw [List.append_nil]
    rfl
  rw [outline]
  refine parts.congr fun env => ?_
  rw [List.append_nil, List.append_nil]
  rfl

theorem Directives.records (directives : Directives) :
    Records index revision [Directives.outline directives] fun env =>
      Directives.entries index revision env directives :=
  Records.plainNode (by decide) (by decide) rfl (fun _ => rfl)
    (Records.map fun directive _ => directive.records)

theorem Directives.records_optional (directives : Option Directives) :
    Records index revision (optional Directives.outline directives) fun env =>
      directives.toList.flatMap (Directives.entries index revision env) :=
  Records.optional fun directives _ => Directives.records directives

end GraphQL
