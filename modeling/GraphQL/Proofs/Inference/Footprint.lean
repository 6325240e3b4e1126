import GraphQL.Production.Document
import GraphQL.Proofs.Inference.Simulation

/-! # The footprint of an inference

What resolving a revision asks of an index is recorded, or stands in the revision: the root types of
the kinds of its operations, the members of the types that its definitions are resolved through, the
first definitions of the directives it applies and of the fragments it spreads. Indexes that agree on
that resolve the revision alike, `infer_footprint`.

* `Resolver.Noted`: every type that stands around the current node is recorded for the definition
  around it,
* `Resolver.step_congr` and `Resolver.foldl_congr`: a walk by either index is the same walk,
* `infer_eq_of_forward`: where nothing refers back, what is consumed is all that is asked. -/

namespace GraphQL

set_option autoImplicit false

open Outline

/-! ## What is asked -/

/-- Both have the same members of a type under every name. -/
structure Index.SameMembers (i j : Index) (type : Text) : Prop where
  fields : ∀ name, i.fields.membersByName type name = j.fields.membersByName type name
  inputFields :
    ∀ name, i.inputFields.membersByName type name = j.inputFields.membersByName type name

/-- Both give the same to what a node is looked up by itself, whatever stands around it. -/
def Node.AskedAlike (i j : Index) : Node → Prop
  | .operation d => i.rootType? d.kind = j.rootType? d.kind
  | .directive d => ∀ name, textOf? d.name = some name →
      i.directives.first? name = j.directives.first? name
  | .spread s => i.fragments.first? s.name.text = j.fragments.first? s.name.text
  | _ => True

/-- Both give the same to everything that resolving a revision by the first asks for. -/
structure Index.AgreeFor (i j : Index) (revision : Revision) : Prop where
  roots : ∀ d, Definition.operation d ∈ revision.tree.definitions →
    i.rootType? d.kind = j.rootType? d.kind
  members : ∀ d ∈ revision.tree.definitions,
    ∀ type ∈ (infer i revision).referencedTypes.get (d.node.id revision.id), i.SameMembers j type
  directives : ∀ d, Node.directive d ∈ revision.tree.outline.nodes →
    ∀ name, textOf? d.name = some name → i.directives.first? name = j.directives.first? name
  fragments : ∀ s, Node.spread s ∈ revision.tree.outline.nodes →
    i.fragments.first? s.name.text = j.fragments.first? s.name.text

namespace Resolver

variable {i j : Index} {revision : Nat} {owner : NodeId} {r : Resolver}

/-! ## Types are recorded before they are asked for -/

/-- A walk is inside a definition, and every type that stands around the current node is recorded
for it. -/
structure Noted (owner : NodeId) (r : Resolver) : Prop where
  inside : r.definition = some owner
  scopes : ∀ type, some type ∈ r.scopes → type ∈ r.referenced owner
  inputObjects : ∀ type, some type ∈ r.inputObjects → type ∈ r.referenced owner

/-- A change of tables other than that of the types keeps it. -/
theorem Noted.record (h : Noted owner r) {change : Inference → Inference}
    (same : (change r.inference).referencedTypes = r.inference.referencedTypes) :
    Noted owner (r.record change) := by
  have keep : (r.record change).referenced owner = r.referenced owner :=
    congrArg (MultiMap.get · owner) same
  refine ⟨h.inside, fun type ht => ?_, fun type ht => ?_⟩
  · rw [keep]
    exact h.scopes type ht
  · rw [keep]
    exact h.inputObjects type ht

theorem Noted.expect (h : Noted owner r) (expected : Option ExpectedValue) :
    Noted owner (r.expect expected) := ⟨h.inside, h.scopes, h.inputObjects⟩

theorem Noted.enterScope (h : Noted owner r) (type : Option Text) (set : Option NodeId) :
    Noted owner (r.enterScope type set) := by
  have around := r.enterScope_surroundings type set
  refine ⟨by rw [enterScope_definition, h.inside], fun name hn => ?_, fun name hn => ?_⟩
  · rw [mem_referenced_enterScope]
    rw [show (r.enterScope type set).scopes = type :: r.scopes from
      congrArg Surroundings.scopes around, List.mem_cons] at hn
    rcases hn with own | outer
    · exact .inr ⟨h.inside, own⟩
    · exact .inl (h.scopes name outer)
  · rw [mem_referenced_enterScope]
    rw [show (r.enterScope type set).inputObjects = r.inputObjects from
      congrArg Surroundings.inputObjects around] at hn
    exact .inl (h.inputObjects name hn)

theorem Noted.recordArguments (h : Noted owner r) (given : Option Arguments)
    (taken : Option (Located (Delimited InputValueDefinition))) :
    Noted owner (r.recordArguments revision given taken) := by
  unfold Resolver.recordArguments
  cases given with
  | none => exact h
  | some given =>
    cases taken with
    | none => exact h
    | some taken => exact h.record rfl

theorem Noted.meetValue (h : Noted owner r) (value : NodeId) : Noted owner (r.meetValue value) := by
  unfold Resolver.meetValue
  cases innermost? r.expectations with
  | none => exact h
  | some expected => exact h.record rfl

theorem Noted.enterField (h : Noted owner r) (f : Field SelectionSet) :
    Noted owner (r.enterField i revision f) := by
  unfold Resolver.enterField
  dsimp only
  split
  · refine ⟨h.inside, fun type ht => ?_, h.inputObjects⟩
    rcases List.mem_cons.1 ht with own | outer
    · cases own
    · exact h.scopes type outer
  · refine Noted.enterScope (Noted.recordArguments ?_ _ _) _ _
    exact h.record rfl

theorem Noted.reference (h : Noted owner r) (name : Text) : Noted owner (r.reference name) := by
  have around := r.reference_surroundings name
  refine ⟨(reference_definition r name).trans h.inside, fun type ht => ?_, fun type ht => ?_⟩
  · rw [show (r.reference name).scopes = r.scopes from congrArg Surroundings.scopes around] at ht
    exact (mem_referenced_reference name).2 (.inl (h.scopes type ht))
  · rw [show (r.reference name).inputObjects = r.inputObjects from
      congrArg Surroundings.inputObjects around] at ht
    exact (mem_referenced_reference name).2 (.inl (h.inputObjects type ht))

theorem Noted.enterObject (h : Noted owner r) : Noted owner r.enterObject := by
  unfold Resolver.enterObject
  generalize (innermost? r.expectations).bind (fun expected => expected.type.value.innermostName?) =
    type
  cases type with
  | none =>
    refine ⟨h.inside, h.scopes, fun type ht => ?_⟩
    rcases List.mem_cons.1 ht with own | outer
    · cases own
    · exact h.inputObjects type outer
  | some name =>
    have noted := h.reference name
    refine ⟨noted.inside, noted.scopes, fun type ht => ?_⟩
    rcases List.mem_cons.1 ht with own | outer
    · exact (mem_referenced_reference name).2 (.inr ⟨h.inside, Option.some.inj own⟩)
    · exact noted.inputObjects type outer

theorem Noted.enter (h : Noted owner r) (n : Node) : Noted owner (r.enter i revision n) := by
  cases n with
  | operation d => exact h.enterScope _ _
  | fragment d => exact h.enterScope _ _
  | inline f => exact h.enterScope _ _
  | field f => exact h.enterField f
  | directive d =>
    show Noted owner (r.enterDirective i revision d)
    unfold enterDirective
    split
    · exact h
    · exact (h.record rfl).recordArguments _ _
  | spread s =>
    show Noted owner (r.enterSpread i revision s)
    unfold enterSpread
    split
    · exact h
    · exact h.record rfl
  | arguments a => exact ⟨h.inside, h.scopes, h.inputObjects⟩
  | argument a =>
    show Noted owner (r.enterArgument revision a)
    unfold enterArgument
    dsimp only
    split
    · exact h.expect none
    · exact (h.record rfl).expect _
  | value v =>
    cases v with
    | list items => exact h.expect _
    | object fields => exact h.enterObject
    | _ => exact h
  | objectField f => cases f; exact h.expect _
  | variableDefinition d => exact h.expect _
  | inputValueDefinition d => exact h.expect _
  | _ => exact h

theorem Noted.leave (h : Noted owner r) (n : Node) : Noted owner (r.leave n) where
  inside := by rw [leave_definition, h.inside]
  scopes := fun type ht => by
    rw [referenced_leave]
    exact h.scopes type (mem_scopes_leave n ht)
  inputObjects := fun type ht => by
    rw [referenced_leave]
    exact h.inputObjects type (mem_inputObjects_leave n ht)

theorem Noted.step (h : Noted owner r) {e : Event} (inner : e.isInner = true) :
    Noted owner (r.step i revision e) := by
  cases e with
  | announce role n =>
    cases role with
    | definition => cases inner
    | value => exact h.meetValue _
    | _ => exact h
  | enter n => exact h.enter n
  | leave n => exact h.leave n
  | _ => exact h

/-! ## The same walk -/

/-- A field is looked up alike in a type with the same members. -/
theorem enterField_congr (f : Field SelectionSet)
    (same : ∀ type, some type ∈ r.scopes → i.SameMembers j type) :
    r.enterField i revision f = r.enterField j revision f := by
  have lookup : ((innermost? r.scopes).bind fun type =>
      (textOf? f.name).bind fun name => (i.fields.membersByName type name).head?) =
      (innermost? r.scopes).bind fun type =>
        (textOf? f.name).bind fun name => (j.fields.membersByName type name).head? := by
    cases top : innermost? r.scopes with
    | none => rfl
    | some type => simp only [Option.bind_some, (same type (mem_of_innermost top)).fields]
  unfold enterField
  rw [lookup]

theorem enterDirective_congr {d : Directive} (same : (Node.directive d).AskedAlike i j) :
    r.enterDirective i revision d = r.enterDirective j revision d := by
  have lookup : (textOf? d.name).bind i.directives.first? =
      (textOf? d.name).bind j.directives.first? := by
    cases hn : textOf? d.name with
    | none => rfl
    | some name => exact same name hn
  unfold enterDirective
  rw [lookup]

theorem enterSpread_congr {s : FragmentSpread} (same : (Node.spread s).AskedAlike i j) :
    r.enterSpread i revision s = r.enterSpread j revision s := by
  have lookup : i.fragments.first? s.name.text = j.fragments.first? s.name.text := same
  unfold enterSpread
  rw [lookup]

theorem enterObjectField_congr (name : Token)
    (same : ∀ type, some type ∈ r.inputObjects → i.SameMembers j type) :
    r.enterObjectField i name = r.enterObjectField j name := by
  unfold enterObjectField
  cases top : innermost? r.inputObjects with
  | none => rfl
  | some type => simp only [Option.bind_some, (same type (mem_of_innermost top)).inputFields]

/-- A step asks only for members of recorded types, and for what its node is looked up by. -/
theorem step_congr (h : Noted owner r) {e : Event}
    (members : ∀ type ∈ r.referenced owner, i.SameMembers j type)
    (asked : ∀ n ∈ e.node?, n.AskedAlike i j) : r.step i revision e = r.step j revision e := by
  cases e with
  | enter n =>
    have own : n.AskedAlike i j := asked n rfl
    show r.enter i revision n = r.enter j revision n
    cases n with
    | operation d =>
      have root : i.rootType? d.kind = j.rootType? d.kind := own
      simp only [enter, root]
    | field f => exact enterField_congr f fun type ht => members type (h.scopes type ht)
    | directive d => exact enterDirective_congr own
    | spread s => exact enterSpread_congr own
    | value v => cases v <;> rfl
    | objectField f =>
      obtain ⟨name, colon, value⟩ := f
      exact enterObjectField_congr name fun type ht => members type (h.inputObjects type ht)
    | _ => rfl
  | announce role n => cases role <;> rfl
  | _ => rfl

/-- Types are never forgotten, so that those recorded at the end cover what every step asks for. -/
theorem foldl_congr {events : List Event} (h : Noted owner r)
    (inner : ∀ e ∈ events, e.isInner = true) (asked : ∀ e ∈ events, ∀ n ∈ e.node?, n.AskedAlike i j)
    (members : ∀ type ∈ (events.foldl (step i revision) r).referenced owner, i.SameMembers j type) :
    events.foldl (step i revision) r = events.foldl (step j revision) r := by
  induction events generalizing r with
  | nil => rfl
  | cons e events ih =>
    rw [List.forall_mem_cons] at inner asked
    rw [List.foldl_cons] at members
    have first : r.step i revision e = r.step j revision e :=
      step_congr h (fun type ht => members type
        (referenced_foldl i revision (referenced_step i revision ht))) asked.1
    rw [List.foldl_cons, List.foldl_cons, ih (h.step inner.1) inner.2 asked.2 members, first]

/-! ## Whole documents -/

/-- A walk over a definition from where nothing stands around it. -/
theorem foldl_definition_congr {d : Definition} (scopes : r.scopes = [])
    (inputObjects : r.inputObjects = [])
    (asked : ∀ n ∈ (d.outline .definition).nodes, n.AskedAlike i j)
    (members : ∀ type ∈ ((d.outline .definition).events.foldl (step i revision) r).referenced
      (d.node.id revision), i.SameMembers j type) :
    (d.outline .definition).events.foldl (step i revision) r =
      (d.outline .definition).events.foldl (step j revision) r := by
  have events : (d.outline .definition).events =
      .announce .definition d.node :: .enter d.node :: (eventsOf d.node.parts ++ [.leave d.node]) := by
    rw [d.outline_eq, Outline.events]
    rfl
  have asked : ∀ e ∈ (d.outline .definition).events, ∀ n ∈ e.node?, n.AskedAlike i j :=
    fun e he n hn => asked n (node_of_mem_events _ e he n hn)
  rw [events, List.forall_mem_cons] at asked
  rw [events, List.foldl_cons] at members
  rw [events, List.foldl_cons, List.foldl_cons]
  have start : Noted (d.node.id revision) (r.step i revision (.announce .definition d.node)) := by
    refine ⟨rfl, fun type ht => ?_, fun type ht => ?_⟩
    · have none : some type ∈ r.scopes := ht
      rw [scopes] at none
      cases none
    · have none : some type ∈ r.inputObjects := ht
      rw [inputObjects] at none
      cases none
  have inner : ∀ e ∈ Event.enter d.node :: (eventsOf d.node.parts ++ [Event.leave d.node]),
      e.isInner = true := by
    rw [List.forall_mem_cons, List.forall_mem_append, List.forall_mem_singleton]
    exact ⟨rfl, AllGenuine.inner _ d.genuine, rfl⟩
  exact foldl_congr start inner asked.2 members

theorem foldl_definitions_congr {definitions : List Definition} (scopes : r.scopes = [])
    (inputObjects : r.inputObjects = [])
    (asked : ∀ n ∈ nodesOf (definitions.map (Definition.outline .definition)), n.AskedAlike i j)
    (members : ∀ d ∈ definitions,
      ∀ type ∈ ((eventsOf (definitions.map (Definition.outline .definition))).foldl
        (step i revision) r).referenced (d.node.id revision), i.SameMembers j type) :
    (eventsOf (definitions.map (Definition.outline .definition))).foldl (step i revision) r =
      (eventsOf (definitions.map (Definition.outline .definition))).foldl (step j revision) r := by
  induction definitions generalizing r with
  | nil => rfl
  | cons d rest ih =>
    rw [List.map_cons, nodesOf, List.forall_mem_append] at asked
    rw [List.map_cons, eventsOf, List.foldl_append, List.forall_mem_cons] at members
    rw [List.map_cons, eventsOf, List.foldl_append, List.foldl_append]
    have first := foldl_definition_congr scopes inputObjects asked.1 fun type ht =>
      members.1 type (referenced_foldl i revision ht)
    have around := walk_surroundings i revision r (d.outline .definition)
    have rest := ih ((congrArg Surroundings.scopes around).trans scopes)
      ((congrArg Surroundings.inputObjects around).trans inputObjects) asked.2 members.2
    rw [rest, first]

end Resolver

theorem Document.operation_mem {tree : Document} {o : OperationDefinition}
    (h : Node.operation o ∈ tree.outline.nodes) : Definition.operation o ∈ tree.definitions := by
  rw [Document.outline, nodes, List.mem_cons] at h
  rcases h with root | h
  · cases root
  · rw [nodesOf_map] at h
    obtain ⟨d, hd, hn⟩ := List.mem_flatMap.1 h
    have own := Definition.eq_node_of_isOperation hn rfl
    cases d with
    | operation o' =>
      cases own
      exact hd
    | _ => cases own

/-- Nodes of a revision are asked for alike by indexes that agree for it. -/
theorem Index.AgreeFor.asked {i j : Index} {revision : Revision} (h : i.AgreeFor j revision) :
    ∀ n ∈ revision.tree.outline.nodes, n.AskedAlike i j := by
  intro n hn
  cases n with
  | operation d => exact h.roots d (Document.operation_mem hn)
  | directive d => exact h.directives d hn
  | spread s => exact h.fragments s hn
  | _ => trivial

theorem infer_congr {i j : Index} {revision : Revision}
    (asked : ∀ n ∈ revision.tree.outline.nodes, n.AskedAlike i j)
    (members : ∀ d ∈ revision.tree.definitions,
      ∀ type ∈ (infer i revision).referencedTypes.get (d.node.id revision.id),
        i.SameMembers j type) : infer i revision = infer j revision := by
  unfold infer at members ⊢
  rw [Document.outline, nodes, List.forall_mem_cons] at asked
  rw [Document.outline, foldl_node, List.foldl_append] at members
  rw [Document.outline, foldl_node, foldl_node, List.foldl_append, List.foldl_append]
  have same := Resolver.foldl_definitions_congr (r := {}) rfl rfl asked.2 members
  exact congrArg (fun r => (Resolver.leave (.document revision.tree) r).inference) same

/-- Indexes that agree on what resolving a revision by the first asks for resolve it alike: the same
entries in every table. -/
theorem infer_footprint {i j : Index} {revision : Revision} (h : i.AgreeFor j revision) :
    infer i revision = infer j revision := infer_congr h.asked h.members

/-! ## A revision beside an unrelated type -/

def shopText : Text :=
  "type Query { cart(at: Place): Cart } type Cart { total: Int } input Place { at: Place }" ++
    " directive @cached(s: Int) on FIELD fragment F on Cart { total }"

def shop : Revision := ⟨1, (parse 1 shopText).tree⟩

def asking : Revision := ⟨2, (parse 2 "{ cart(at: { at: { x: 1 } }) @cached(s: 2) { ...F } }").tree⟩

def unrelated : Revision := ⟨3, (parse 3 "type Other { cart: Other }").tree⟩

/-- Another type changes nothing under other names. -/
theorem unrelated_agreeOn {name : Dependency} (other : name ≠ .type "Other") :
    (Index.build [shop, asking]).AgreeOn name (Index.build [shop, asking, unrelated]) := by
  have own : ∀ entry ∈ Index.filed [unrelated], entry.2.product? = some (.type "Other") := by
    decide +kernel
  have none : Index.providers name [unrelated] = [] := by
    refine List.filter_eq_nil_iff.2 fun entry he provides => other ?_
    rw [own entry he] at provides
    exact (Option.some.inj (beq_iff_eq.1 provides)).symm
  have split : Index.providers name [shop, asking, unrelated] =
      Index.providers name [shop, asking] ++ Index.providers name [unrelated] := by
    simp only [Index.providers, Index.filed, List.flatMap_cons, List.filter_append, List.flatMap_nil,
      List.append_nil, List.append_assoc]
  refine Index.build_agreeOn ?_
  rw [split, none, List.append_nil]

theorem unrelated_agreeFor :
    (Index.build [shop, asking]).AgreeFor (Index.build [shop, asking, unrelated]) asking where
  roots := fun d _ => (unrelated_agreeOn (by decide)).rootType d.kind
  members := by
    have apart : ∀ d ∈ asking.tree.definitions,
        ∀ type ∈ (infer (Index.build [shop, asking]) asking).referencedTypes.get
          (d.node.id asking.id), Dependency.type type ≠ .type "Other" := by decide +kernel
    intro d hd type ht
    have agree := unrelated_agreeOn (apart d hd type ht)
    exact ⟨agree.1.membersByName, agree.2.membersByName⟩
  directives := fun _ _ name _ => by
    have agree : Index.AgreeOn (.directive name) _ _ := unrelated_agreeOn (by simp)
    exact congrArg List.head? agree
  fragments := fun s _ => by
    have agree : Index.AgreeOn (.fragment s.name.text) _ _ := unrelated_agreeOn (by simp)
    exact congrArg List.head? agree

/-- The revision is resolved through three types, and alike beside a fourth. -/
theorem unrelated_footprint :
    (Index.build [shop, asking]).AgreeFor (Index.build [shop, asking, unrelated]) asking ∧
      (∃ d ∈ asking.tree.definitions,
        (infer (Index.build [shop, asking]) asking).referencedTypes.get (d.node.id asking.id) =
          ["Query", "Cart", "Place"]) ∧
      infer (Index.build [shop, asking]) asking =
        infer (Index.build [shop, asking, unrelated]) asking :=
  ⟨unrelated_agreeFor, by decide +kernel, infer_footprint unrelated_agreeFor⟩

/-! ## Documents in which nothing refers back -/

theorem Index.AgreeOn.sameMembers {i j : Index} {type : Text} (h : i.AgreeOn (.type type) j) :
    i.SameMembers j type := ⟨h.1.membersByName, h.2.membersByName⟩

theorem Site.Settled.asked {i j : Index} {revision : Nat} {off : Off} {site : Site}
    (h : site.Settled i j revision off) (forth : site.refersBack = false) :
    site.node.AskedAlike i j := by
  obtain ⟨definition, directive, n⟩ := site
  have lookups := h.lookups forth
  cases n with
  | operation d => exact (h.schema rfl).rootType d.kind
  | directive d =>
    intro name own
    have named : Dependency.directive name ∈ (Node.directive d).references := by
      simp [Node.references, own]
    exact congrArg List.head? (lookups _ named)
  | spread s => exact congrArg List.head? (lookups (.fragment s.name.text) List.mem_cons_self)
  | _ => trivial

/-- Where nothing refers back, indexes that agree on what the definitions of a document consume, and
on the types that one resolves them through, resolve the document alike. -/
theorem infer_eq_of_forward {i j : Index} {revision : Revision}
    (ordered : revision.tree.outline.tokens.Pairwise Token.Before)
    (forth : ∀ site ∈ revision.tree.sites, site.refersBack = false)
    (consumed : ∀ d ∈ revision.tree.definitions, ∀ name ∈ d.consumed, i.AgreeOn name j)
    (types : ∀ d ∈ revision.tree.definitions,
      ∀ type ∈ (infer i revision).referencedTypes.get (d.node.id revision.id),
        i.AgreeOn (.type type) j) : infer i revision = infer j revision := by
  refine infer_congr (fun n hn => ?_) fun d hd type ht => (types d hd type ht).sameMembers
  rw [← revision.tree.map_node_sites] at hn
  obtain ⟨site, hs, rfl⟩ := List.mem_map.1 hn
  rcases List.mem_cons.1 hs with rfl | inside
  · trivial
  · obtain ⟨d, hd, hm⟩ := List.mem_flatMap.1 inside
    have settled : site.Settled i j revision.id (revision.tree.selfOff revision.id) :=
      d.settled hd ordered (consumed d hd) site hm
    exact settled.asked (forth site hs)

end GraphQL
