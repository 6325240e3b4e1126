import GraphQL.Proofs.Inference.Entries
import GraphQL.Proofs.Inference.Simulation
import GraphQL.Proofs.Document.Induction

/-! # What walks record

`Records` says of some outlines that a walk over them stays inside its definition and records certain
entries, whatever stands around them.

* `Records.append`: outlines one after another record their entries one after another,
* `Records.node`: a node records its own entries, then what its parts record in what it puts around
  them,
* `Records.of_parts` is the same where the parts depend on what the node itself recorded.

Argument lists must be different nodes for that: a walk asks the table of argument lists for what a
list is resolved to. -/

namespace GraphQL

set_option autoImplicit false

open Outline Resolver

variable {α : Type} {index : Index} {revision : Nat}

namespace Outline

theorem eventsOf_append (os rest : List Outline) :
    eventsOf (os ++ rest) = eventsOf os ++ eventsOf rest := by
  induction os with
  | nil => rfl
  | cons o os ih => rw [List.cons_append, eventsOf, eventsOf, ih, List.append_assoc]

theorem nodesOf_append (os rest : List Outline) :
    nodesOf (os ++ rest) = nodesOf os ++ nodesOf rest := by
  induction os with
  | nil => rfl
  | cons o os ih => rw [List.cons_append, nodesOf, nodesOf, ih, List.append_assoc]

theorem eventsOf_singleton (o : Outline) : eventsOf [o] = o.events := by
  rw [eventsOf, eventsOf, List.append_nil]

end Outline

/-! ## What stands around a walk -/

def Resolver.env (r : Resolver) : Environment :=
  ⟨r.definition, innermost? r.scopes, innermost? r.expectations, innermost? r.argumentScopes,
    innermost? r.inputObjects⟩

theorem Resolver.env_congr {r s : Resolver} (around : r.surroundings = s.surroundings)
    (definition : r.definition = s.definition) : r.env = s.env := by
  have scopes : r.scopes = s.scopes := congrArg Surroundings.scopes around
  have expectations : r.expectations = s.expectations := congrArg Surroundings.expectations around
  have lists : r.argumentScopes = s.argumentScopes := congrArg Surroundings.argumentScopes around
  have objects : r.inputObjects = s.inputObjects := congrArg Surroundings.inputObjects around
  rw [env, env, scopes, expectations, lists, objects, definition]

/-- A walk inside a definition leaves what stands around it. -/
theorem Resolver.env_foldl {os : List Outline} (inner : ∀ e ∈ eventsOf os, e.isInner = true)
    (r : Resolver) : ((eventsOf os).foldl (step index revision) r).env = r.env :=
  env_congr (walkAll_surroundings index revision r os) (foldl_definition inner)

/-! ## Argument lists -/

def Node.argumentsId? (revision : Nat) : Node → Option NodeId
  | .arguments a => some ((Node.arguments a).id revision)
  | _ => none

/-- The argument lists of some outlines. -/
def argumentIds (revision : Nat) (os : List Outline) : List NodeId :=
  (nodesOf os).filterMap (Node.argumentsId? revision)

theorem argumentIds_append (os rest : List Outline) :
    argumentIds revision (os ++ rest) = argumentIds revision os ++ argumentIds revision rest := by
  rw [argumentIds, nodesOf_append, List.filterMap_append, argumentIds, argumentIds]

theorem argumentIds_node (role : Role) (n : Node) (parts : List Outline) :
    argumentIds revision [.node role n parts] =
      (n.argumentsId? revision).toList ++ argumentIds revision parts := by
  rw [argumentIds, nodesOf, nodes, nodesOf, List.append_nil, List.filterMap_cons, argumentIds]
  cases n.argumentsId? revision <;> rfl

/-- The argument list that an entry resolves. -/
def Resolution.list? : Resolution → Option NodeId
  | .argumentList list _ => some list
  | _ => none

/-- Only their own entries resolve argument lists. -/
theorem Inference.argumentLists_fileAll {entries : List Resolution} {id : NodeId}
    (other : id ∉ entries.filterMap Resolution.list?) (i : Inference) :
    (i.fileAll entries).argumentLists.get? id = i.argumentLists.get? id := by
  induction entries generalizing i with
  | nil => rfl
  | cons entry entries ih =>
    rw [fileAll_cons]
    cases entry with
    | argumentList list taken =>
      have other : id ∉ list :: entries.filterMap Resolution.list? := other
      rw [List.mem_cons, not_or] at other
      rw [ih other.2, file, Table.get?_insert, if_neg other.1]
    | _ => exact ih other _

/-- The argument lists of some outlines are different nodes, and none is resolved yet. -/
structure Resolver.Fresh (revision : Nat) (os : List Outline) (r : Resolver) : Prop where
  nodup : (argumentIds revision os).Nodup
  unresolved : ∀ id ∈ argumentIds revision os, r.inference.argumentLists.get? id = none

/-! ## Outlines that record entries -/

/-- A walk over some outlines stays inside the definition and records certain entries, whatever
stands around it. -/
structure Records (index : Index) (revision : Nat) (os : List Outline)
    (entries : Environment → List Resolution) : Prop where
  inner : ∀ e ∈ eventsOf os, e.isInner = true
  lists : ∀ env, (entries env).filterMap Resolution.list? ⊆ argumentIds revision os
  walk : ∀ r : Resolver, r.Fresh revision os →
    ((eventsOf os).foldl (step index revision) r).inference = r.inference.fileAll (entries r.env)

/-- Entering a node in its role records entries of its own, and changes what stands around. -/
def Enters (index : Index) (revision : Nat) (role : Role) (n : Node)
    (own : Environment → List Resolution) (inside : Environment → Environment) : Prop :=
  ∀ r : Resolver, ∀ s, s = ((announcement role n).foldl (step index revision) r).enter index revision n →
    s.inference = r.inference.fileAll (own r.env) ∧ s.env = inside r.env

namespace Records

variable {os rest : List Outline} {f g : Environment → List Resolution}

theorem congr (h : Records index revision os f) (same : ∀ env, f env = g env) :
    Records index revision os g := funext same ▸ h

theorem nil : Records index revision [] fun _ => [] where
  inner := by simp [eventsOf]
  lists := fun _ => List.nil_subset _
  walk := fun _ _ => rfl

theorem token (t : Token) : Records index revision [.token t] fun _ => [] where
  inner := by simp [eventsOf, events, Event.isInner]
  lists := fun _ => List.nil_subset _
  walk := fun _ _ => rfl

theorem missing (gap : Recovery.Gap Expectation) :
    Records index revision [.missing gap] fun _ => [] where
  inner := by simp [eventsOf, events, Event.isInner]
  lists := fun _ => List.nil_subset _
  walk := fun _ _ => rfl

/-- What the first outlines record, then what the others record in the same surroundings. -/
theorem append (h : Records index revision os f) (h' : Records index revision rest g) :
    Records index revision (os ++ rest) fun env => f env ++ g env where
  inner := by
    rw [eventsOf_append, List.forall_mem_append]
    exact ⟨h.inner, h'.inner⟩
  lists := fun env => by
    rw [List.filterMap_append, argumentIds_append]
    exact List.append_subset.2
      ⟨List.subset_append_of_subset_left _ (h.lists env),
        List.subset_append_of_subset_right _ (h'.lists env)⟩
  walk := fun r fresh => by
    obtain ⟨nodup, unresolved⟩ := fresh
    rw [argumentIds_append] at nodup unresolved
    rw [List.forall_mem_append] at unresolved
    have apart := List.nodup_append.1 nodup
    have first := h.walk r ⟨apart.1, unresolved.1⟩
    have fresh : ((eventsOf os).foldl (step index revision) r).Fresh revision rest := by
      refine ⟨apart.2.1, fun id hid => ?_⟩
      rw [first, Inference.argumentLists_fileAll]
      · exact unresolved.2 id hid
      · exact fun own => apart.2.2 id (h.lists r.env own) id hid rfl
    rw [eventsOf_append, List.foldl_append, h'.walk _ fresh, first, env_foldl h.inner,
      Inference.fileAll_append]

theorem cons {o : Outline} (h : Records index revision [o] f)
    (h' : Records index revision rest g) :
    Records index revision (o :: rest) fun env => f env ++ g env := h.append h'

theorem present (h : Records index revision os f) : Records index revision [.present os] f := by
  have events : eventsOf [.present os] = .present :: eventsOf os := by
    rw [eventsOf_singleton, Outline.events]
  have ids : argumentIds revision [.present os] = argumentIds revision os := by
    rw [argumentIds, nodesOf, nodes, nodesOf, List.append_nil, argumentIds]
  refine ⟨?_, fun env => ids ▸ h.lists env, fun r fresh => ?_⟩
  · rw [events, List.forall_mem_cons]
    exact ⟨rfl, h.inner⟩
  · rw [events]
    exact h.walk r ⟨ids ▸ fresh.nodup, ids ▸ fresh.unresolved⟩

theorem optional {outline : α → Outline} {entries : α → Environment → List Resolution} {a : Option α}
    (h : ∀ x ∈ a, Records index revision [outline x] (entries x)) :
    Records index revision (Outline.optional outline a) fun env =>
      a.toList.flatMap fun x => entries x env := by
  cases a with
  | none => exact nil
  | some x => exact (h x rfl).congr fun env => by simp

theorem slot {content : α → List Outline} {entries : α → Environment → List Resolution} {a : Required α}
    (h : ∀ x ∈ a.value?, Records index revision (content x) (entries x)) :
    Records index revision [Outline.slot content a] fun env =>
      a.value?.toList.flatMap fun x => entries x env := by
  cases a with
  | missing gap => exact missing gap
  | present x => exact (h x rfl).present.congr fun env => by simp [Recovery.Slot.value?]

theorem single {outline : α → Outline} {entries : α → Environment → List Resolution} {a : Required α}
    (h : ∀ x ∈ a.value?, Records index revision [outline x] (entries x)) :
    Records index revision [Outline.single outline a] fun env =>
      a.value?.toList.flatMap fun x => entries x env := slot h

theorem tokenSlot (t : Required Token) :
    Records index revision [Outline.tokenSlot t] fun _ => [] :=
  (single fun t _ => token t).congr fun _ => by simp

theorem optionalToken (t : Option Token) :
    Records index revision (Outline.optionalToken t) fun _ => [] :=
  (optional fun t _ => token t).congr fun _ => by simp

theorem map {outline : α → Outline} {entries : α → Environment → List Resolution} {items : List α}
    (h : ∀ x ∈ items, Records index revision [outline x] (entries x)) :
    Records index revision (items.map outline) fun env =>
      items.flatMap fun x => entries x env := by
  induction items with
  | nil => exact nil
  | cons x items ih =>
    rw [List.forall_mem_cons] at h
    exact (h.1.cons (ih h.2)).congr fun env => by rw [List.flatMap_cons]

theorem delimited {outline : α → Outline} {entries : α → Environment → List Resolution}
    {items : Delimited α} (h : ∀ x ∈ items.items, Records index revision [outline x] (entries x)) :
    Records index revision (Outline.delimited outline items) fun env =>
      items.items.flatMap fun x => entries x env :=
  ((token items.opening).cons ((map h).append (tokenSlot items.closing))).congr fun env => by simp

/-- Outlines that record nothing, before others. -/
theorem silent_append (h : Records index revision os fun _ => [])
    (h' : Records index revision rest f) : Records index revision (os ++ rest) f :=
  (h.append h').congr fun _ => List.nil_append _

theorem silent_cons {o : Outline} (h : Records index revision [o] fun _ => [])
    (h' : Records index revision rest f) : Records index revision (o :: rest) f :=
  h.silent_append h'

theorem members {outline : α → Outline} (list : MemberList α)
    (h : ∀ x, Records index revision [outline x] fun _ => []) :
    Records index revision (Outline.members outline list) fun _ => [] := by
  have one (a : Required α) : Records index revision [Outline.single outline a] fun _ => [] :=
    (single fun x _ => h x).congr fun _ => by simp
  have rest (l : List (Token × Required α)) : Records index revision
      (l.flatMap fun m => [.token m.1, Outline.single outline m.2]) fun _ => [] := by
    induction l with
    | nil => exact nil
    | cons m l ih => exact ((token m.1).silent_cons (one m.2)).silent_append ih
  exact (token list.intro).silent_cons
    ((optionalToken list.leading).silent_append ((one list.first).silent_cons (rest list.rest)))

/-! ## Nodes -/

/-- A node records what is recorded on entering it, then what its parts record in what it puts
around them. Leaving it takes that off again. -/
theorem of_parts {role : Role} {n : Node} {parts : List Outline}
    {own : Environment → List Resolution} {inside : Environment → Environment}
    (plain : role ≠ .definition) (inner : ∀ e ∈ eventsOf parts, e.isInner = true)
    (enter : Enters index revision role n own inside)
    (lists : ∀ env, (own env ++ f env).filterMap Resolution.list? ⊆
      argumentIds revision [.node role n parts])
    (walk : ∀ r s : Resolver, r.Fresh revision [.node role n parts] →
      s.inference = r.inference.fileAll (own r.env) → s.env = inside r.env →
      ((eventsOf parts).foldl (step index revision) s).inference = s.inference.fileAll (f r.env)) :
    Records index revision [.node role n parts] fun env => own env ++ f env where
  inner := by
    rw [eventsOf_singleton, events, List.forall_mem_append, List.forall_mem_cons,
      List.forall_mem_append, List.forall_mem_singleton]
    exact ⟨announcement_inner plain n, rfl, inner, rfl⟩
  lists := lists
  walk := fun r fresh => by
    obtain ⟨entered, around⟩ := enter r _ rfl
    rw [eventsOf_singleton, foldl_node, List.foldl_append]
    show (Resolver.leave n _).inference = _
    rw [leave_inference, Inference.fileAll_append, ← entered]
    exact walk r _ fresh entered around

theorem node {role : Role} {n : Node} {parts : List Outline} {own : Environment → List Resolution}
    {inside : Environment → Environment} (plain : role ≠ .definition)
    (other : n.argumentsId? revision = none)
    (enter : Enters index revision role n own inside)
    (none : ∀ env, (own env).filterMap Resolution.list? = [])
    (h : Records index revision parts f) :
    Records index revision [.node role n parts] fun env => own env ++ f (inside env) := by
  have ids : argumentIds revision [.node role n parts] = argumentIds revision parts := by
    rw [argumentIds_node, other, Option.toList_none, List.nil_append]
  refine of_parts plain h.inner enter (fun env => ?_) fun r s fresh same around => ?_
  · rw [ids, List.filterMap_append, none, List.nil_append]
    exact h.lists _
  · rw [← around]
    refine h.walk s ⟨ids ▸ fresh.nodup, fun id hid => ?_⟩
    rw [same, Inference.argumentLists_fileAll (by simp [none])]
    exact fresh.unresolved id (ids ▸ hid)

/-- Roles of neither definitions nor values have no effect. -/
theorem announcement_silent {role : Role} (plain : role ≠ .definition) (quiet : role ≠ .value)
    (n : Node) (r : Resolver) : (announcement role n).foldl (step index revision) r = r := by
  cases role with
  | definition => exact absurd rfl plain
  | value => exact absurd rfl quiet
  | _ => rfl

/-- A node that resolving passes over. -/
theorem plainNode {role : Role} {n : Node} {parts : List Outline} (plain : role ≠ .definition)
    (quiet : role ≠ .value) (other : n.argumentsId? revision = none)
    (enter : ∀ r : Resolver, r.enter index revision n = r)
    (h : Records index revision parts f) : Records index revision [.node role n parts] f := by
  have enter : Enters index revision role n (fun _ => []) id := by
    rintro r s rfl
    rw [announcement_silent plain quiet, enter]
    exact ⟨rfl, rfl⟩
  exact (node plain other enter (fun _ => rfl) h).congr fun _ => List.nil_append _

end Records

/-! ## Types -/

theorem NamedType.records {role : Role} (plain : role ≠ .definition) (quiet : role ≠ .value)
    (type : NamedType) : Records index revision [type.outline role] fun _ => [] :=
  Records.plainNode plain quiet rfl (fun _ => rfl) (Records.token type.name)

theorem TypeRef.hereditary_records : TypeRef.Hereditary
    (fun type => ∀ role, role ≠ .definition → role ≠ .value →
      Records index revision [type.outline role] fun _ => [])
    (fun type => ∀ role, role ≠ .definition → role ≠ .value →
      Records index revision [type.outline role] fun _ => []) where
  named := fun type role plain quiet => type.records plain quiet
  list := fun opening item closing h role plain quiet => by
    have item : Records index revision [single (TypeRef.outline .type) item] fun _ => [] :=
      (Records.single fun type ht => h type ht .type (by decide) (by decide)).congr fun _ => by simp
    rw [NullableType.outline_list]
    exact Records.plainNode plain quiet rfl (fun _ => rfl)
      ((Records.token opening).silent_cons (item.silent_cons (Records.tokenSlot closing)))
  nullable := fun type h => h
  nonNull := fun type bang h role plain quiet =>
    Records.plainNode plain quiet rfl (fun _ => rfl)
      ((h .type (by decide) (by decide)).silent_cons (Records.token bang))

theorem TypeRef.records_slot (type : Required TypeRef) :
    Records index revision [single (TypeRef.outline .type) type] fun _ => [] :=
  (Records.single fun type _ =>
    TypeRef.hereditary_records.typeRef type .type (by decide) (by decide)).congr fun _ => by simp

theorem NamedType.records_slot (type : Required NamedType) :
    Records index revision [single (NamedType.outline .plain) type] fun _ => [] :=
  (Records.single fun type _ => type.records (by decide) (by decide)).congr fun _ => by simp

end GraphQL
