import GraphQL.Production.Document
import GraphQL.Proofs.Inference.RecordedValues

/-! # Resolution follows the structure of a document

The walk of `infer` keeps stacks of what stands around the current node. It records exactly the
entries of `Document.entries`, which is defined without them.

* `Selection.hereditary_records`: selections are resolved in the type around them,
* `Definition.records` for every kind of definition,
* `infer_entries` for whole documents, and `infer_scoped` with what becomes of the stacks,
* `Document.listsApart`: the argument lists of a document of a text are different nodes. -/

namespace GraphQL

set_option autoImplicit false

open Outline Resolver

variable {index : Index} {revision : Nat}

/-! ## Selections -/

theorem enterScope_inference (type : Option Text) (set : Option NodeId) (r : Resolver) :
    (r.enterScope type set).inference = r.inference.fileAll (r.env.selecting type set) := by
  unfold enterScope Environment.selecting
  cases type with
  | none =>
    rw [through_none]
    cases set <;> rfl
  | some name =>
    have referenced := reference_inference { r with scopes := some name :: r.scopes } name
    cases set with
    | none => exact referenced.trans (congrArg r.inference.fileAll (List.append_nil _).symm)
    | some set =>
      rw [Inference.fileAll_append]
      exact congrArg (Inference.file · (.selection set name)) referenced

theorem enterScope_env (type : Option Text) (set : Option NodeId) (r : Resolver) :
    (r.enterScope type set).env = { r.env with scope := type } :=
  env_congr (s := { r with scopes := type :: r.scopes }) (r.enterScope_surroundings type set)
    (r.enterScope_definition type set)

theorem Field.enters (field : Field SelectionSet) :
    Enters index revision .selection (.field field)
      (fun env => (field.definition? index env).toList.map (.field ((Node.field field).id revision)) ++
        (listEntries revision field.arguments (field.taken? index env) ++
          env.selecting (field.type? index env) (setId revision field.selectionSet)))
      (fun env => field.inside index env) := by
  rintro r s rfl
  have found : field.definition? index r.env = (innermost? r.scopes).bind fun type =>
      (textOf? field.name).bind fun name => (index.fields.membersByName type name).head? := rfl
  show (r.enterField index revision field).inference = r.inference.fileAll _ ∧
    (r.enterField index revision field).env = { r.env with scope := field.type? index r.env }
  unfold enterField Field.taken? Field.type?
  rw [← found, Inference.fileAll_append, Inference.fileAll_append]
  cases field.definition? index r.env with
  | none =>
    refine ⟨?_, rfl⟩
    show r.inference = (r.inference.fileAll (listEntries revision field.arguments none)).fileAll
      (r.env.selecting none (setId revision field.selectionSet))
    rw [selecting_none]
    cases field.arguments <;> rfl
  | some d =>
    refine ⟨(enterScope_inference _ _ _).trans ?_, (enterScope_env _ _ _).trans ?_⟩
    · rw [recordArguments_inference, recordArguments_env]
      rfl
    · rw [recordArguments_env]
      rfl

theorem Field.records_of (field : Field SelectionSet)
    (h : ∀ set ∈ field.selectionSet, Records index revision [SelectionSet.outline set] fun env =>
      SelectionSet.entries index revision env set) :
    Records index revision [Field.outline .selection field] fun env =>
      Field.entries index revision env field := by
  have none (env : Environment) : ((field.definition? index env).toList.map
      (Resolution.field ((Node.field field).id revision))).filterMap Resolution.list? = [] := by
    cases field.definition? index env <;> rfl
  have fieldAlias : Records index revision (optional Alias.outline field.fieldAlias) fun _ => [] :=
    (Records.optional fun a _ => Records.plainNode (by decide) (by decide) rfl (fun _ => rfl)
      ((Records.token a.name).silent_cons (Records.token a.colon))).congr fun _ => by simp
  have parts := Records.giver (by decide) rfl field.enters none
    (fun env => env.list?_selecting _ _)
    (fieldAlias.silent_append (Records.tokenSlot field.name))
    ((Directives.records_optional field.directives).append (Records.optional h))
  rw [Field.outline_eq, List.append_cons]
  exact parts.congr fun env => (Field.entries_eq index revision env field).symm

theorem FragmentSpread.records (spread : FragmentSpread) :
    Records index revision [spread.outline .selection] fun env =>
      spread.entries index revision env := by
  have enters : Enters index revision .selection (.spread spread)
      (fun _ => spread.ownEntries index revision) id := by
    rintro r s rfl
    show (r.enterSpread index revision spread).inference = _ ∧
      (r.enterSpread index revision spread).env = r.env
    unfold enterSpread ownEntries definition?
    cases index.fragments.first? spread.name.text with
    | none => exact ⟨rfl, rfl⟩
    | some d => exact ⟨rfl, rfl⟩
  have none (env : Environment) :
      (spread.ownEntries index revision).filterMap Resolution.list? = [] := by
    unfold ownEntries
    cases spread.definition? index <;> rfl
  exact Records.node (by decide) rfl enters none ((Records.token spread.dots).silent_cons
    ((Records.token spread.name).silent_cons (Directives.records_optional spread.directives)))

theorem TypeCondition.records (condition : TypeCondition) :
    Records index revision [condition.outline] fun _ => [] :=
  Records.plainNode (by decide) (by decide) rfl (fun _ => rfl)
    ((Records.token condition.keyword).silent_cons (NamedType.records_slot condition.type))

/-- A node whose selection set selects from a type. -/
theorem Enters.scope {role : Role} (plain : role ≠ .definition) (quiet : role ≠ .value) {n : Node}
    (type : Environment → Option Text) (set : Option NodeId)
    (enter : ∀ r : Resolver, r.enter index revision n = r.enterScope (type r.env) set) :
    Enters index revision role n (fun env => env.selecting (type env) set)
      (fun env => { env with scope := type env }) := by
  rintro r s rfl
  rw [Records.announcement_silent plain quiet, enter]
  exact ⟨enterScope_inference _ _ _, enterScope_env _ _ _⟩

theorem InlineFragment.records_of (fragment : InlineFragment SelectionSet)
    (h : ∀ set ∈ fragment.selectionSet.value?,
      Records index revision [SelectionSet.outline set] fun env =>
        SelectionSet.entries index revision env set) :
    Records index revision [InlineFragment.outline .selection fragment] fun env =>
      InlineFragment.entries index revision env fragment := by
  have enters : Enters index revision .selection (.inline fragment) _ _ :=
    .scope (by decide) (by decide) (fun env => fragment.type? env)
      (setId revision fragment.selectionSet.value?) fun r => by
        show r.enterScope _ _ = _
        unfold type?
        cases fragment.condition <;> rfl
  have condition : Records index revision (optional TypeCondition.outline fragment.condition)
      fun _ => [] := (Records.optional fun c _ => c.records).congr fun _ => by simp
  have parts := Records.node (by decide) rfl enters (fun env => env.list?_selecting _ _)
    ((Records.token fragment.dots).silent_cons (condition.silent_append
      ((Directives.records_optional fragment.directives).append (Records.single h))))
  rw [InlineFragment.outline_eq]
  exact parts.congr fun env => (InlineFragment.entries_eq index revision env fragment).symm

theorem Selection.entriesOf_eq (env : Environment) (selections : List Selection) :
    Selection.entriesOf index revision env selections =
      selections.flatMap (Selection.entries index revision env) := by
  induction selections with
  | nil => rfl
  | cons selection selections ih => rw [Selection.entriesOf, ih, List.flatMap_cons]

theorem SelectionSet.entries_eq (env : Environment) (set : SelectionSet) :
    SelectionSet.entries index revision env set =
      set.items.flatMap (Selection.entries index revision env) := by
  obtain ⟨opening, selections, closing⟩ := set
  rw [SelectionSet.entries, Selection.entriesOf_eq]

theorem Selection.hereditary_records : Selection.Hereditary
    (fun selection => Records index revision [selection.outline] fun env =>
      selection.entries index revision env)
    (fun set => Records index revision [SelectionSet.outline set] fun env =>
      SelectionSet.entries index revision env set) where
  field := fun field h => field.records_of h
  spread := fun spread => spread.records
  inline := fun fragment h => fragment.records_of h
  set := fun set h => by
    rw [SelectionSet.outline_eq]
    refine (Records.plainNode (by decide) (by decide) rfl (fun _ => rfl)
      (Records.delimited h)).congr fun env => ?_
    rw [SelectionSet.entries_eq]

theorem SelectionSet.records_slot (set : Required SelectionSet) :
    Records index revision [single SelectionSet.outline set] fun env =>
      set.value?.toList.flatMap (SelectionSet.entries index revision env) :=
  Records.single fun set _ => Selection.hereditary_records.selectionSet set

/-! ## Parts of definitions -/

theorem descriptionOutline_records (description : Option Token) :
    Records index revision (optional descriptionOutline description) fun _ => [] :=
  (Records.optional fun t _ => Records.plainNode (by decide) (by decide) rfl (fun _ => rfl)
    (Records.token t)).congr fun _ => by simp

/-- A node that expects values of a type of this revision. -/
theorem Enters.expect {n : Node} (type : Required TypeRef)
    (enter : ∀ r : Resolver, r.enter index revision n = r.expect (expectedOf revision type)) :
    Enters index revision .plain n (fun _ => [])
      (fun env => { env with expected := expectedOf revision type }) := by
  rintro r s rfl
  rw [Records.announcement_silent (by decide) (by decide), enter]
  exact ⟨rfl, rfl⟩

theorem defaultAndDirectives_records (default : Option DefaultValue)
    (directives : Option Directives) :
    Records index revision
      (optional DefaultValue.outline default ++ optional Directives.outline directives) fun env =>
        default.toList.flatMap (DefaultValue.entries index revision env) ++
          directives.toList.flatMap (Directives.entries index revision env) :=
  (Records.optional fun default _ => default.records).append (Directives.records_optional directives)

theorem VariableDefinition.records (definition : VariableDefinition) :
    Records index revision [definition.outline] fun env =>
      definition.entries index revision env := by
  have enters : Enters index revision .plain (.variableDefinition definition) _ _ :=
    .expect definition.type fun _ => rfl
  have var : Records index revision [Value.outline .plain (.var definition.var)] fun _ => [] :=
    Records.plainNode (by decide) (by decide) rfl (fun _ => rfl)
      ((Records.token definition.var.dollar).silent_cons (Records.tokenSlot definition.var.name))
  exact (Records.node (by decide) rfl enters (fun _ => rfl) (var.silent_cons
    ((Records.tokenSlot definition.colon).silent_cons
      ((TypeRef.records_slot definition.type).silent_cons
        (defaultAndDirectives_records definition.default definition.directives))))).congr
    fun _ => List.nil_append _

theorem InputValueDefinition.records (definition : InputValueDefinition) :
    Records index revision [definition.outline] fun env =>
      definition.entries index revision env := by
  have enters : Enters index revision .plain (.inputValueDefinition definition) _ _ :=
    .expect definition.type fun _ => rfl
  exact (Records.node (by decide) rfl enters (fun _ => rfl)
    ((descriptionOutline_records definition.description).silent_append
      ((Records.token definition.name).silent_cons
        ((Records.tokenSlot definition.colon).silent_cons
          ((TypeRef.records_slot definition.type).silent_cons
            (defaultAndDirectives_records definition.default definition.directives)))))).congr
    fun _ => List.nil_append _

theorem InputValueDefinition.records_arguments (definitions : Option (Delimited InputValueDefinition)) :
    Records index revision (optional InputValueDefinition.argumentsOutline definitions) fun env =>
      definitions.toList.flatMap (InputValueDefinition.listEntries index revision env) :=
  Records.optional fun _ _ => Records.plainNode (by decide) (by decide) rfl (fun _ => rfl)
    (Records.delimited fun definition _ => definition.records)

theorem InputValueDefinition.records_fields (definitions : Option (Delimited InputValueDefinition)) :
    Records index revision (optional InputValueDefinition.fieldsOutline definitions) fun env =>
      definitions.toList.flatMap (InputValueDefinition.listEntries index revision env) :=
  Records.optional fun _ _ => Records.plainNode (by decide) (by decide) rfl (fun _ => rfl)
    (Records.delimited fun definition _ => definition.records)

theorem FieldDefinition.records (definition : FieldDefinition) :
    Records index revision [definition.outline] fun env =>
      definition.entries index revision env :=
  Records.plainNode (by decide) (by decide) rfl (fun _ => rfl)
    ((descriptionOutline_records definition.description).silent_append
      ((Records.token definition.name).silent_cons
        ((InputValueDefinition.records_arguments definition.arguments).append
          ((Records.tokenSlot definition.colon).silent_cons
            ((TypeRef.records_slot definition.type).silent_cons
              (Directives.records_optional definition.directives))))))

theorem EnumValueDefinition.records (definition : EnumValueDefinition) :
    Records index revision [definition.outline] fun env =>
      definition.entries index revision env := by
  have value : Records index revision [Value.outline .plain (.enum definition.value)] fun _ => [] :=
    Records.plainNode (by decide) (by decide) rfl (fun _ => rfl) (Records.token definition.value)
  exact Records.plainNode (by decide) (by decide) rfl (fun _ => rfl)
    ((descriptionOutline_records definition.description).silent_append
      (value.silent_cons (Directives.records_optional definition.directives)))

theorem FieldedBody.records (body : FieldedBody) :
    Records index revision body.outlines fun env => body.entries index revision env := by
  have interfaces : Records index revision (optional interfacesOutline body.interfaces)
      fun _ => [] :=
    (Records.optional fun list _ => Records.plainNode (by decide) (by decide) rfl (fun _ => rfl)
      (Records.members list fun type => type.records (by decide) (by decide))).congr
      fun _ => by simp
  have fields : Records index revision (optional FieldDefinition.listOutline body.fields) fun env =>
      body.fields.toList.flatMap fun list =>
        list.items.flatMap (FieldDefinition.entries index revision env) :=
    Records.optional fun _ _ => Records.plainNode (by decide) (by decide) rfl (fun _ => rfl)
      (Records.delimited fun definition _ => definition.records)
  exact interfaces.silent_append ((Directives.records_optional body.directives).append fields)

theorem TypeBody.records {δ : Type} {outlines : δ → List Outline}
    {scalar : δ → Environment → List Resolution}
    (h : ∀ directives, Records index revision (outlines directives) (scalar directives))
    (body : TypeBody δ) :
    Records index revision (body.outlines outlines) fun env =>
      body.entries index revision env fun directives => scalar directives env := by
  cases body with
  | scalar directives => exact h directives
  | object body => exact body.records
  | interface body => exact body.records
  | union directives list =>
    have list : Records index revision (optional unionMembersOutline list) fun _ => [] :=
      (Records.optional fun list _ => Records.plainNode (by decide) (by decide) rfl (fun _ => rfl)
        (Records.members list fun type => type.records (by decide) (by decide))).congr
        fun _ => by simp
    exact ((Directives.records_optional directives).append list).congr fun _ => List.append_nil _
  | enum directives values =>
    have values : Records index revision (optional EnumValueDefinition.listOutline values) fun env =>
        values.toList.flatMap fun list =>
          list.items.flatMap (EnumValueDefinition.entries index revision env) :=
      Records.optional fun _ _ => Records.plainNode (by decide) (by decide) rfl (fun _ => rfl)
        (Records.delimited fun definition _ => definition.records)
    exact (Directives.records_optional directives).append values
  | input directives fields =>
    exact (Directives.records_optional directives).append (InputValueDefinition.records_fields fields)

theorem RootOperationTypes.records (roots : RootOperationTypes) :
    Records index revision [roots.outline] fun _ => [] := by
  have operation (type : OperationType) : Records index revision [type.outline] fun _ => [] :=
    Records.plainNode (by decide) (by decide) rfl (fun _ => rfl) (Records.token type.keyword)
  have root (root : RootOperationType) : Records index revision [root.outline] fun _ => [] :=
    Records.plainNode (by decide) (by decide) rfl (fun _ => rfl)
      ((operation root.operation).silent_cons
        ((Records.tokenSlot root.colon).silent_cons (NamedType.records_slot root.type)))
  have entries : Records index revision [slot (List.map RootOperationType.outline) roots.entries]
      fun _ => [] :=
    (Records.slot fun entries _ => Records.map fun r _ => root r).congr fun _ => by simp
  exact Records.plainNode (by decide) (by decide) rfl (fun _ => rfl)
    ((Records.token roots.opening).silent_cons
      (entries.silent_cons (Records.tokenSlot roots.closing)))

/-! ## Definitions -/

theorem OperationDefinition.records (definition : OperationDefinition) :
    Records index revision [definition.outline .plain] fun env =>
      definition.entries index revision env := by
  have enters : Enters index revision .plain (.operation definition) _ _ :=
    .scope (by decide) (by decide) (fun _ => index.rootType? definition.kind)
      (setId revision definition.selectionSet.value?) fun _ => rfl
  have type : Records index revision (optional OperationType.outline definition.type) fun _ => [] :=
    (Records.optional fun type _ => Records.plainNode (by decide) (by decide) rfl (fun _ => rfl)
      (Records.token type.keyword)).congr fun _ => by simp
  have declared : Records index revision
      (optional VariableDefinition.listOutline definition.variableDefinitions) fun env =>
        definition.variableDefinitions.toList.flatMap fun list =>
          list.items.flatMap (VariableDefinition.entries index revision env) :=
    Records.optional fun _ _ => Records.plainNode (by decide) (by decide) rfl (fun _ => rfl)
      (Records.delimited fun definition _ => definition.records)
  exact Records.node (by decide) rfl enters (fun env => env.list?_selecting _ _)
    (type.silent_append ((Records.optionalToken definition.name).silent_append
      (declared.append ((Directives.records_optional definition.directives).append
        (SelectionSet.records_slot definition.selectionSet)))))

theorem FragmentDefinition.records (definition : FragmentDefinition) :
    Records index revision [definition.outline .plain] fun env =>
      definition.entries index revision env := by
  have enters : Enters index revision .plain (.fragment definition) _ _ :=
    .scope (by decide) (by decide) (fun _ => conditionType? definition.condition.value?)
      (setId revision definition.selectionSet.value?) fun _ => rfl
  have condition : Records index revision [single TypeCondition.outline definition.condition]
      fun _ => [] := (Records.single fun c _ => c.records).congr fun _ => by simp
  exact Records.node (by decide) rfl enters (fun env => env.list?_selecting _ _)
    ((Records.token definition.keyword).silent_cons
      ((Records.tokenSlot definition.name).silent_cons (condition.silent_cons
        ((Directives.records_optional definition.directives).append
          (SelectionSet.records_slot definition.selectionSet)))))

theorem Definition.records (definition : Definition) :
    Records index revision [definition.outline .plain] fun env =>
      definition.entries index revision env := by
  cases definition with
  | operation d => exact d.records
  | fragment d => exact d.records
  | schema d =>
    have roots : Records index revision [single RootOperationTypes.outline d.roots] fun _ => [] :=
      (Records.single fun roots _ => roots.records).congr fun _ => by simp
    exact (Records.plainNode (by decide) (by decide) rfl (fun _ => rfl)
      ((descriptionOutline_records d.description).silent_append
        ((Records.token d.keyword).silent_cons
          ((Directives.records_optional d.directives).append roots)))).congr
      fun _ => List.append_nil _
  | schemaExtension d =>
    have roots : Records index revision (optional RootOperationTypes.outline d.roots) fun _ => [] :=
      (Records.optional fun roots _ => roots.records).congr fun _ => by simp
    exact (Records.plainNode (by decide) (by decide) rfl (fun _ => rfl)
      ((Records.token d.extend).silent_cons ((Records.token d.keyword).silent_cons
        ((Directives.records_optional d.directives).append roots)))).congr
      fun _ => List.append_nil _
  | type d =>
    exact Records.plainNode (by decide) (by decide) rfl (fun _ => rfl)
      ((descriptionOutline_records d.description).silent_append
        ((Records.token d.keyword).silent_cons ((Records.tokenSlot d.name).silent_cons
          (d.body.records fun directives => Directives.records_optional directives))))
  | typeExtension d =>
    exact Records.plainNode (by decide) (by decide) rfl (fun _ => rfl)
      ((Records.token d.extend).silent_cons ((Records.token d.keyword).silent_cons
        ((Records.tokenSlot d.name).silent_cons (d.body.records fun directives =>
          Records.single fun directives _ => Directives.records directives))))
  | directive d =>
    have locations : Records index revision [single DirectiveLocation.listOutline d.locations]
        fun _ => [] := by
      refine (Records.single fun list _ => Records.plainNode (by decide) (by decide) rfl
        (fun _ => rfl) (Records.members list fun location => ?_)).congr fun _ => by simp
      exact Records.plainNode (by decide) (by decide) rfl (fun _ => rfl)
        (Records.token location.name)
    exact (Records.plainNode (by decide) (by decide) rfl (fun _ => rfl)
      ((descriptionOutline_records d.description).silent_append
        ((Records.token d.keyword).silent_cons ((Records.tokenSlot d.sign).silent_cons
          ((Records.tokenSlot d.name).silent_cons
            ((InputValueDefinition.records_arguments d.arguments).append
              ((Records.optionalToken d.repeatable).silent_append locations))))))).congr
      fun _ => List.append_nil _

/-! ## Whole documents -/

/-- Nothing stands around a definition. -/
def Resolver.Surroundings.none : Surroundings := ⟨[], [], [], []⟩

/-- A walk over a definition where nothing stands around it. -/
theorem Definition.walk (index : Index) (definition : Definition) {r : Resolver}
    (around : r.surroundings = .none)
    (fresh : r.Fresh revision [definition.outline .definition]) :
    ((definition.outline .definition).events.foldl (step index revision) r).inference =
      r.inference.fileAll (definition.entries index revision
        { definition := some (definition.node.id revision) }) := by
  have ids : argumentIds revision [definition.outline .definition] =
      argumentIds revision [definition.outline .plain] := by
    rw [definition.outline_eq, definition.outline_eq, argumentIds_node, argumentIds_node]
  have events : (definition.outline .definition).events =
      .announce .definition definition.node :: eventsOf [definition.outline .plain] := by
    rw [eventsOf_singleton, definition.outline_eq, definition.outline_eq, Outline.events,
      Outline.events]
    rfl
  have inside : (r.step index revision (.announce .definition definition.node)).env =
      { definition := some (definition.node.id revision) } := by
    exact env_congr (s := { definition := some (definition.node.id revision) }) around rfl
  rw [events, List.foldl_cons, ← inside]
  exact definition.records.walk (r.step index revision (.announce .definition definition.node))
    ⟨ids ▸ fresh.nodup, ids ▸ fresh.unresolved⟩

theorem Resolver.walk_definitions {definitions : List Definition} {r : Resolver}
    (around : r.surroundings = .none)
    (fresh : r.Fresh revision (definitions.map (Definition.outline .definition))) :
    ((eventsOf (definitions.map (Definition.outline .definition))).foldl (step index revision)
      r).inference = r.inference.fileAll (definitions.flatMap fun d =>
        d.entries index revision { definition := some (d.node.id revision) }) := by
  induction definitions generalizing r with
  | nil => rfl
  | cons d rest ih =>
    have ids : argumentIds revision ((d :: rest).map (Definition.outline .definition)) =
        argumentIds revision [d.outline .definition] ++
          argumentIds revision (rest.map (Definition.outline .definition)) :=
      argumentIds_append [d.outline .definition] _
    obtain ⟨nodup, unresolved⟩ := fresh
    rw [ids] at nodup unresolved
    rw [List.forall_mem_append] at unresolved
    obtain ⟨first, later, apart⟩ := List.nodup_append.1 nodup
    have walked := d.walk index around ⟨first, unresolved.1⟩
    have lists (env : Environment) : (d.entries index revision env).filterMap Resolution.list? ⊆
        argumentIds revision [d.outline .definition] := by
      have plain : (d.entries index revision env).filterMap Resolution.list? ⊆
        argumentIds revision [d.outline .plain] := d.records.lists env
      rw [d.outline_eq, argumentIds_node] at plain ⊢
      exact plain
    rw [List.map_cons, eventsOf, List.foldl_append, List.flatMap_cons, Inference.fileAll_append,
      ← walked]
    refine ih ((walk_surroundings index revision r _).trans around) ⟨later, fun id hid => ?_⟩
    rw [walked, Inference.argumentLists_fileAll]
    · exact unresolved.2 id hid
    · exact fun own => apart id (lists _ own) id hid rfl

/-- The argument lists of a document are different nodes. -/
def Document.ListsApart (revision : Nat) (document : Document) : Prop :=
  (document.outline.nodes.filterMap (Node.argumentsId? revision)).Nodup

instance (revision : Nat) (document : Document) : Decidable (document.ListsApart revision) :=
  inferInstanceAs (Decidable (List.Nodup _))

theorem infer_entries {revision : Revision} (apart : revision.tree.ListsApart revision.id) :
    infer index revision = ({} : Inference).fileAll (revision.tree.entries index revision.id) := by
  have fresh : ({} : Resolver).Fresh revision.id
      (revision.tree.definitions.map (Definition.outline .definition)) := ⟨apart, fun _ _ => rfl⟩
  unfold infer
  rw [Document.outline, foldl_node, List.foldl_append]
  exact Resolver.walk_definitions rfl fresh

/-- No two argument lists of a document of a text are the same node. -/
theorem Document.listsApart {document : Document}
    (ordered : document.outline.tokens.Pairwise Token.Before) (revision : Nat) :
    document.ListsApart revision := by
  unfold ListsApart
  rw [← document.map_node_sites]
  refine List.pairwise_filterMap.2 (List.pairwise_map.2 ?_)
  refine (Document.heads_apart ordered).imp_of_mem fun {s s'} hs hs' apart id hid id' hid' same => ?_
  obtain ⟨a, ha⟩ : ∃ a, s.node = .arguments a := by
    cases hn : s.node with
    | arguments a => exact ⟨a, rfl⟩
    | _ => rw [hn] at hid; cases hid
  obtain ⟨a', ha'⟩ : ∃ a, s'.node = .arguments a := by
    cases hn : s'.node with
    | arguments a => exact ⟨a, rfl⟩
    | _ => rw [hn] at hid'; cases hid'
  rw [ha] at hid
  rw [ha'] at hid'
  have ids : s.node.id revision = s'.node.id revision := by
    rw [ha, ha']
    exact (Option.some.inj hid).trans (same.trans (Option.some.inj hid').symm)
  obtain ⟨t, ht, t', ht', starts⟩ :=
    heads_of_id_eq ordered hs hs' (by rw [ha]; rfl) ids
  exact apart t ht t' ht' starts

/-- The walk of a document with its stacks records exactly the entries that are defined without
them. Every part of it leaves the stacks as it found them, and at its end they are empty. The
argument lists are apart in the document of any text, by `Document.listsApart`. -/
theorem infer_scoped (index : Index) (revision : Revision)
    (apart : revision.tree.ListsApart revision.id) :
    infer index revision = ({} : Inference).fileAll (revision.tree.entries index revision.id) ∧
      (∀ (part : Outline) (r : Resolver),
        (part.events.foldl (step index revision.id) r).surroundings = r.surroundings) ∧
      (revision.tree.outline.events.foldl (step index revision.id) {}).surroundings = .none :=
  ⟨infer_entries apart, fun part r => walk_surroundings index revision.id r part,
    walk_surroundings index revision.id {} revision.tree.outline⟩

/-! ## A revision of a text -/

def catalog : Revision := ⟨1, (parse 1
  ("type Query { item(at: Place, all: [Place] = [{ x: 0 }]): Item } type Item { price: Int }" ++
    " input Place { x: Int, near: Place } directive @cached(s: Int) on FIELD")).tree⟩

/-- Fields under a failed lookup, a typed fragment there, and values in lists and objects. -/
def lookup : Revision := ⟨2, (parse 2
  ("query($p: Place = { x: 1 }) \x7b item(at: { near: { x: 2 } }, all: [$p]) @cached(s: 3) " ++
    "{ gone(at: 1) { price ... on Item { price ... { price } } } } \x7d")).tree⟩

theorem lookup_scoped :
    lookup.tree.ListsApart lookup.id ∧
      (lookup.tree.entries (Index.build [catalog, lookup]) lookup.id).length = 31 ∧
      infer (Index.build [catalog, lookup]) lookup = ({} : Inference).fileAll
        (lookup.tree.entries (Index.build [catalog, lookup]) lookup.id) :=
  have apart := Document.listsApart (parse_leaves_before 2 _) lookup.id
  ⟨apart, by decide +kernel, (infer_scoped (Index.build [catalog, lookup]) lookup apart).1⟩

end GraphQL
