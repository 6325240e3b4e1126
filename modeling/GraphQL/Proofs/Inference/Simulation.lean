import GraphQL.Proofs.Inference.Agreement

/-! # Resolving a document by two indexes

Two indexes that agree on everything a definition is looked up by resolve it alike, but for the
sites that refer back to the definition itself.

* `Resolver.walk_off`: a walk over a directive that is off changes only what is off,
* `Resolver.Alike.walk`: walks over one outline stay alike,
* `infer_agreeOff`: the same for whole documents. -/

namespace GraphQL

set_option autoImplicit false

open Outline

/-! ## Events -/

def Event.node? : Event → Option Node
  | .announce _ n => some n
  | .enter n => some n
  | .leave n => some n
  | _ => none

/-- Events other than the announcement of a definition. -/
def Event.isInner : Event → Bool
  | .announce .definition _ => false
  | _ => true

namespace Outline

theorem announcement_cases (role : Role) (n : Node) :
    announcement role n = [] ∨ announcement role n = [.announce role n] := by
  cases role with
  | plain => exact .inl rfl
  | _ => exact .inr rfl

theorem mem_announcement {role : Role} {n : Node} {e : Event} (h : e ∈ announcement role n) :
    e = .announce role n := by
  rcases announcement_cases role n with none | one
  · rw [none] at h
    cases h
  · rw [one] at h
    exact List.mem_singleton.1 h

theorem announcement_inner {role : Role} (plain : role ≠ .definition) (n : Node) :
    ∀ e ∈ announcement role n, e.isInner = true := by
  intro e he
  rw [mem_announcement he]
  cases role with
  | definition => exact absurd rfl plain
  | _ => rfl

theorem foldl_node {σ : Type} (f : σ → Event → σ) (a : σ) (role : Role) (n : Node)
    (parts : List Outline) :
    (Outline.node role n parts).events.foldl f a = (eventsOf parts ++ [Event.leave n]).foldl f
      (f ((announcement role n).foldl f a) (.enter n)) := by
  rw [events, List.foldl_append, List.foldl_cons]

mutual
theorem node_of_mem_events : (o : Outline) → ∀ e ∈ o.events, ∀ n ∈ e.node?, n ∈ o.nodes
  | .token t => by simp [events, Event.node?]
  | .missing gap => by simp [events, Event.node?]
  | .present content => by
    rw [events, nodes, List.forall_mem_cons]
    exact ⟨by simp [Event.node?], node_of_mem_eventsOf content⟩
  | .node role m parts => by
    intro e he n hn
    rw [nodes]
    rw [events, List.mem_append, List.mem_cons, List.mem_append, List.mem_singleton] at he
    rcases he with he | rfl | he | rfl
    · rw [mem_announcement he] at hn
      exact Option.some.inj hn ▸ List.mem_cons_self
    · exact Option.some.inj hn ▸ List.mem_cons_self
    · exact List.mem_cons_of_mem m (node_of_mem_eventsOf parts e he n hn)
    · exact Option.some.inj hn ▸ List.mem_cons_self
theorem node_of_mem_eventsOf : (os : List Outline) → ∀ e ∈ eventsOf os, ∀ n ∈ e.node?,
    n ∈ nodesOf os
  | [] => by simp [eventsOf]
  | o :: rest => by
    intro e he n hn
    rw [nodesOf]
    rcases List.mem_append.1 (by rwa [eventsOf] at he) with he | he
    · exact List.mem_append_left _ (node_of_mem_events o e he n hn)
    · exact List.mem_append_right _ (node_of_mem_eventsOf rest e he n hn)
end

mutual
theorem Genuine.inner : (o : Outline) → o.Genuine → ∀ e ∈ o.events, e.isInner = true
  | .token t, _ => by simp [events, Event.isInner]
  | .missing gap, _ => by simp [events, Event.isInner]
  | .present content, .present h => by
    rw [events, List.forall_mem_cons]
    exact ⟨rfl, AllGenuine.inner content h⟩
  | .node role n parts, .node plain _ h _ => by
    rw [events, List.forall_mem_append, List.forall_mem_cons, List.forall_mem_append,
      List.forall_mem_singleton]
    exact ⟨announcement_inner plain n, rfl, AllGenuine.inner parts h, rfl⟩
theorem AllGenuine.inner : (os : List Outline) → AllGenuine os → ∀ e ∈ eventsOf os,
    e.isInner = true
  | [], _ => by simp [eventsOf]
  | o :: rest, h => by
    rw [allGenuine_cons] at h
    rw [eventsOf, List.forall_mem_append]
    exact ⟨Genuine.inner o h.1, AllGenuine.inner rest h.2⟩
end

end Outline

namespace Resolver

variable {i j : Index} {revision : Nat} {off : Off} {r s : Resolver}

/-! ## Inside one definition -/

theorem enter_definition (n : Node) : (r.enter i revision n).definition = r.definition := by
  cases n with
  | operation d => exact enterScope_definition r _ _
  | fragment d => exact enterScope_definition r _ _
  | inline f => exact enterScope_definition r _ _
  | field f =>
    show (r.enterField i revision f).definition = _
    unfold enterField
    dsimp only
    split
    · rfl
    · rw [enterScope_definition, recordArguments_definition, record_definition]
  | directive d =>
    show (r.enterDirective i revision d).definition = _
    unfold enterDirective
    split
    · rfl
    · rw [recordArguments_definition, record_definition]
  | spread s =>
    show (r.enterSpread i revision s).definition = _
    unfold enterSpread
    split <;> rfl
  | argument a =>
    show (r.enterArgument revision a).definition = _
    unfold enterArgument
    dsimp only
    split <;> rfl
  | value v =>
    cases v with
    | object fields =>
      show r.enterObject.definition = _
      unfold enterObject
      dsimp only
      split
      · rfl
      · exact reference_definition r _
    | _ => rfl
  | objectField f => cases f; rfl
  | _ => rfl

theorem step_definition {e : Event} (h : e.isInner = true) :
    (r.step i revision e).definition = r.definition := by
  cases e with
  | announce role n =>
    cases role with
    | definition => cases h
    | value => exact meetValue_definition r _
    | _ => rfl
  | enter n => exact enter_definition n
  | leave n => exact leave_definition n
  | _ => rfl

theorem foldl_definition {events : List Event} (h : ∀ e ∈ events, e.isInner = true) :
    (events.foldl (step i revision) r).definition = r.definition := by
  induction events generalizing r with
  | nil => rfl
  | cons e events ih =>
    rw [List.forall_mem_cons] at h
    rw [List.foldl_cons, ih h.2, step_definition h.1]

/-! ## What is off -/

theorem meetValue_off {value : NodeId} (hv : value ∈ off.given) :
    r.inference.AgreeOff off (r.meetValue value).inference := by
  have hr := Inference.AgreeOff.refl off r.inference
  unfold meetValue
  cases innermost? r.expectations with
  | none => exact hr
  | some expected =>
    obtain ⟨type, default⟩ := expected
    cases default with
    | none => exact { hr with valueTypes := Table.insert_agreeOff hv _ _ }
    | some default =>
      exact { hr with
        valueTypes := Table.insert_agreeOff hv _ _
        valueDefaults := Table.insert_agreeOff hv _ _ }

theorem announce_off {n : Node} (hn : n.id revision ∈ off.given) (role : Role) :
    r.inference.AgreeOff off (r.step i revision (.announce role n)).inference := by
  cases role with
  | value => exact meetValue_off hn
  | _ => exact .refl off r.inference

/-- Whatever is given to a directive that is off changes only what is off. -/
theorem step_off {e : Event} (h : ∀ n ∈ e.node?, n.isGiven = true ∧ n.id revision ∈ off.given) :
    r.inference.AgreeOff off (r.step i revision e).inference := by
  have hr := Inference.AgreeOff.refl off r.inference
  cases e with
  | announce role n => exact announce_off (h n rfl).2 role
  | enter n =>
    obtain ⟨given, hn⟩ := h n rfl
    cases n with
    | arguments a => exact hr
    | argument a =>
      show Inference.AgreeOff off _ (r.enterArgument revision a).inference
      unfold enterArgument
      dsimp only
      split
      · exact hr
      · exact { hr with arguments := Table.insert_agreeOff hn _ _ }
    | value v =>
      cases v with
      | object fields =>
        show Inference.AgreeOff off _ r.enterObject.inference
        unfold enterObject reference
        dsimp only
        split
        · exact hr
        · split
          · exact hr
          · exact ⟨hr.1, hr.2, hr.3, hr.4, hr.5, hr.6, hr.7, hr.8, hr.9⟩
      | _ => exact hr
    | objectField f => cases f; exact hr
    | _ => cases given
  | leave n =>
    show Inference.AgreeOff off _ (r.leave n).inference
    rw [leave_inference]
    exact hr
  | _ => exact hr

theorem foldl_off {events : List Event}
    (h : ∀ e ∈ events, ∀ n ∈ e.node?, n.isGiven = true ∧ n.id revision ∈ off.given) :
    r.inference.AgreeOff off (events.foldl (step i revision) r).inference := by
  induction events generalizing r with
  | nil => exact .refl off _
  | cons e events ih =>
    rw [List.forall_mem_cons] at h
    exact (step_off h.1).trans (ih h.2)

theorem enterDirective_off {d : Directive} (hd : (Node.directive d).id revision ∈ off.names)
    (ha : ∀ a ∈ d.arguments, (Node.arguments a).id revision ∈ off.given) :
    r.inference.AgreeOff off (r.enter i revision (.directive d)).inference := by
  have hr := Inference.AgreeOff.refl off r.inference
  show Inference.AgreeOff off _ (r.enterDirective i revision d).inference
  unfold enterDirective
  split
  · exact hr
  · next found _ =>
    unfold recordArguments
    cases harg : d.arguments with
    | none => exact { hr with directives := Table.insert_agreeOff hd _ _ }
    | some given =>
      have hg := ha given harg
      cases takenBy found.revision found.value.arguments with
      | none => exact { hr with directives := Table.insert_agreeOff hd _ _ }
      | some taken =>
        exact { hr with
          directives := Table.insert_agreeOff hd _ _
          argumentLists := Table.insert_agreeOff hg _ _ }

theorem enterSpread_off {spread : FragmentSpread} (hs : (Node.spread spread).id revision ∈ off.names) :
    r.inference.AgreeOff off (r.enter i revision (.spread spread)).inference := by
  have hr := Inference.AgreeOff.refl off r.inference
  show Inference.AgreeOff off _ (r.enterSpread i revision spread).inference
  unfold enterSpread
  split
  · exact hr
  · next found _ =>
    have hl : (⟨revision, spread⟩ : Located FragmentSpread).id ∈ off.names := hs
    exact { hr with
      fragments := Table.insert_agreeOff hs _ _
      spreads := MultiMap.insertNew_agreeOff hl _ _ }

theorem directive_nodes (d : Directive) {a : Arguments} (ha : d.arguments = some a) :
    Node.arguments a ∈ nodesOf (Node.directive d).parts := by
  show _ ∈ nodesOf (.token d.sign :: tokenSlot d.name :: optional Arguments.outline d.arguments)
  rw [ha]
  simp [nodesOf, nodes, Outline.optional, Arguments.outline]

/-- A walk over an applied directive that is off, with all that is given to it, changes only what is
off. -/
theorem walk_off {d : Directive} (hd : (Node.directive d).id revision ∈ off.names)
    (given : ∀ n ∈ nodesOf (Node.directive d).parts, n.id revision ∈ off.given) :
    r.inference.AgreeOff off
      ((eventsOf (Node.directive d).parts ++ [Event.leave (.directive d)]).foldl (step i revision)
        (r.enter i revision (.directive d))).inference := by
  have ha : ∀ a ∈ d.arguments, (Node.arguments a).id revision ∈ off.given :=
    fun a e => given _ (directive_nodes d e)
  rw [List.foldl_append, List.foldl_cons, List.foldl_nil]
  refine (enterDirective_off (i := i) hd ha).trans ?_
  show Inference.AgreeOff off _ (Resolver.leave _ _).inference
  rw [leave_inference]
  refine foldl_off fun e he n hn => ?_
  have hm := node_of_mem_eventsOf _ e he n hn
  exact ⟨d.given n hm, given n hm⟩

/-- Walks stay alike where each changes only what is off. -/
theorem Alike.of_off (h : Alike i j off r s) {r' s' : Resolver}
    (hr : r'.surroundings = r.surroundings) (hs : s'.surroundings = s.surroundings)
    (dr : r'.definition = r.definition) (ds : s'.definition = s.definition)
    (ir : r.inference.AgreeOff off r'.inference) (is : s.inference.AgreeOff off s'.inference) :
    Alike i j off r' s' where
  surroundings := by rw [hr, hs, h.surroundings]
  definition := by rw [dr, ds, h.definition]
  inference := (ir.symm.trans h.inference).trans is
  scopes := by
    rw [show r'.scopes = r.scopes from congrArg Surroundings.scopes hr]
    exact h.scopes
  inputObjects := by
    rw [show r'.inputObjects = r.inputObjects from congrArg Surroundings.inputObjects hr]
    exact h.inputObjects

end Resolver

/-! ## Side by side -/

/-- What two indexes must agree on for the sites of a definition to be resolved alike by both, but
for sites that are off. -/
structure Site.Settled (i j : Index) (revision : Nat) (off : Off) (site : Site) : Prop where
  names_iff : site.node.id revision ∈ off.names ↔ site.refersBack = true
  given_iff : site.node.id revision ∈ off.given ↔ site.refersBack = true ∧ site.directive ≠ none
  lookups : site.refersBack = false → ∀ name ∈ site.node.lookups, i.AgreeOn name j
  schema : site.node.isOperation = true → i.AgreeOn .schema j

namespace Resolver

variable {i j : Index} {revision : Nat} {off : Off} {r s : Resolver}
  {definition : Option Definition} {owner : NodeId}

theorem Alike.announce (h : Alike i j off r s) {role : Role} (plain : role ≠ .definition) (n : Node) :
    Alike i j off ((announcement role n).foldl (step i revision) r)
      ((announcement role n).foldl (step j revision) s) := by
  cases role with
  | definition => exact absurd rfl plain
  | value => exact h.meetValue _
  | _ => exact h

/-- Walks stay alike over an applied directive that is off. -/
theorem Alike.walk_directive (h : Alike i j off r s) {d : Directive}
    (hd : (Node.directive d).id revision ∈ off.names)
    (given : ∀ n ∈ nodesOf (Node.directive d).parts, n.id revision ∈ off.given) :
    Alike i j off
      ((eventsOf (Node.directive d).parts ++ [Event.leave (.directive d)]).foldl (step i revision)
        (r.enter i revision (.directive d)))
      ((eventsOf (Node.directive d).parts ++ [Event.leave (.directive d)]).foldl (step j revision)
        (s.enter j revision (.directive d))) := by
  have parts : AllGenuine (Node.directive d).parts := by
    cases d.genuine with
    | node _ own parts _ => exact own ▸ parts
  have inner : ∀ e ∈ eventsOf (Node.directive d).parts ++ [Event.leave (.directive d)],
      e.isInner = true := by
    rw [List.forall_mem_append, List.forall_mem_singleton]
    exact ⟨AllGenuine.inner _ parts, rfl⟩
  refine h.of_off (walk_node_surroundings i revision r _ _) (walk_node_surroundings j revision s _ _)
    ?_ ?_ (walk_off hd given) (walk_off hd given)
  · rw [foldl_definition inner, enter_definition]
  · rw [foldl_definition inner, enter_definition]

/-- Everything given to a directive that refers back is off. -/
theorem off_of_refersBack {d : Directive} {directive : Option Directive}
    (forward : Forward definition directive)
    (settled : ∀ site ∈ sitesOf definition (some d) (Node.directive d).parts,
      site.Settled i j revision off)
    (back : (⟨definition, directive, .directive d⟩ : Site).refersBack = true) :
    ∀ n ∈ nodesOf (Node.directive d).parts, n.id revision ∈ off.given := by
  obtain ⟨name, hn, own⟩ := (Forward.refersBack_iff forward).1 back
  intro n hm
  rw [← map_node_sitesOf definition (some d)] at hm
  obtain ⟨site, hs, rfl⟩ := List.mem_map.1 hm
  have around := site_directive_all definition (some d) _ d.given site hs
  refine (settled site hs).given_iff.2 ⟨Site.refersBack_iff.2 ⟨name, ?_, ?_⟩, by simp [around]⟩
  · rw [Site.lookups, around]
    exact List.mem_append_left _ (by simpa [Node.lookups] using hn)
  · rw [site_definition_all definition (some d) _ site hs]
    exact own

/-- Walks stay alike where they enter a node, unless it is a directive that refers back. -/
theorem Alike.enter_site (h : Alike i j off r s) (inside : r.definition = some owner) {n : Node}
    {directive : Option Directive} (forward : Forward definition directive)
    (settled : (⟨definition, directive, n⟩ : Site).Settled i j revision off)
    (known : ∀ type ∈ (r.enter i revision n).referenced owner, i.AgreeOn (.type type) j)
    (other : ∀ d, n = .directive d → (⟨definition, directive, n⟩ : Site).refersBack = false) :
    Alike i j off (r.enter i revision n) (s.enter j revision n) := by
  by_cases back : (⟨definition, directive, n⟩ : Site).refersBack = true
  · have hn := settled.names_iff.2 back
    cases n with
    | directive d => exact absurd (other d rfl) (by rw [back]; decide)
    | spread spread =>
      exact h.of_off (r.enterSpread_surroundings i revision spread)
        (s.enterSpread_surroundings j revision spread) (enter_definition _) (enter_definition _)
        (enterSpread_off hn) (enterSpread_off hn)
    | _ =>
      obtain ⟨name, hm, -⟩ := (Forward.refersBack_iff forward).1 back
      exact absurd hm List.not_mem_nil
  · have forth := Bool.eq_false_iff.2 back
    refine h.enter inside n known (settled.lookups forth) settled.schema fun _ _ hn => ?_
    exact back (settled.given_iff.1 hn).1

/-- Walks stay alike over a node, if they do over its parts. -/
theorem Alike.walk_node (h : Alike i j off r s) (inside : r.definition = some owner) {n : Node}
    {directive : Option Directive} (forward : Forward definition directive)
    (settled : (⟨definition, directive, n⟩ : Site).Settled i j revision off)
    (other : ∀ d, n = .directive d → (⟨definition, directive, n⟩ : Site).refersBack = false)
    {inner : List Event}
    (known : ∀ type ∈ ((inner ++ [Event.leave n]).foldl (step i revision)
      (r.enter i revision n)).referenced owner, i.AgreeOn (.type type) j)
    (parts : ∀ {r s : Resolver}, Alike i j off r s → r.definition = some owner →
      (∀ type ∈ (inner.foldl (step i revision) r).referenced owner, i.AgreeOn (.type type) j) →
      Alike i j off (inner.foldl (step i revision) r) (inner.foldl (step j revision) s)) :
    Alike i j off ((inner ++ [Event.leave n]).foldl (step i revision) (r.enter i revision n))
      ((inner ++ [Event.leave n]).foldl (step j revision) (s.enter j revision n)) := by
  rw [List.foldl_append, List.foldl_cons, List.foldl_nil] at known ⊢
  rw [List.foldl_append, List.foldl_cons, List.foldl_nil]
  have known : ∀ type ∈ (inner.foldl (step i revision) (r.enter i revision n)).referenced owner,
      i.AgreeOn (.type type) j := fun type ht => known type (by
    show type ∈ (Resolver.leave _ _).referenced owner
    rwa [referenced_leave])
  have entered := h.enter_site inside forward settled
    (fun type ht => known type (referenced_foldl i revision ht)) other
  exact (parts entered (by rw [enter_definition, inside]) known).leave n

mutual
/-- Walks over one outline by two indexes stay alike, where the indexes agree on all that the sites
of the outline are looked up by. -/
theorem Alike.walk (o : Outline) (genuine : o.Genuine) (directive : Option Directive)
    (forward : Forward definition directive)
    (settled : ∀ site ∈ o.sites definition directive, site.Settled i j revision off)
    {r s : Resolver} (h : Alike i j off r s) (inside : r.definition = some owner)
    (known : ∀ type ∈ (o.events.foldl (step i revision) r).referenced owner,
      i.AgreeOn (.type type) j) :
    Alike i j off (o.events.foldl (step i revision) r) (o.events.foldl (step j revision) s) := by
  match o, genuine with
  | .token t, _ => exact h
  | .missing gap, _ => exact h
  | .present content, .present genuine =>
    rw [events, List.foldl_cons, List.foldl_cons]
    rw [events, List.foldl_cons] at known
    rw [sites] at settled
    exact Alike.walkAll content genuine directive forward settled h inside known
  | .node role n parts, .node plain own genuine _ =>
    rw [sites, List.forall_mem_cons] at settled
    rw [foldl_node] at known
    rw [foldl_node, foldl_node]
    have announced : Alike i j off ((announcement role n).foldl (step i revision) r)
        ((announcement role n).foldl (step j revision) s) := h.announce plain n
    by_cases back : ∃ d, n = .directive d ∧ (⟨definition, directive, n⟩ : Site).refersBack = true
    · obtain ⟨d, rfl, back⟩ := back
      subst own
      exact announced.walk_directive (settled.1.names_iff.2 back)
        (off_of_refersBack forward settled.2 back)
    · have other : ∀ d, n = .directive d →
          (⟨definition, directive, n⟩ : Site).refersBack = false :=
        fun d hd => Bool.eq_false_iff.2 fun hb => back ⟨d, hd, hb⟩
      refine announced.walk_node ?_ forward settled.1 other known fun h inside known => ?_
      · rw [foldl_definition (announcement_inner plain n), inside]
      · exact Alike.walkAll parts genuine _ (forward.around other) settled.2 h inside known
theorem Alike.walkAll (os : List Outline) (genuine : AllGenuine os) (directive : Option Directive)
    (forward : Forward definition directive)
    (settled : ∀ site ∈ sitesOf definition directive os, site.Settled i j revision off)
    {r s : Resolver} (h : Alike i j off r s) (inside : r.definition = some owner)
    (known : ∀ type ∈ ((eventsOf os).foldl (step i revision) r).referenced owner,
      i.AgreeOn (.type type) j) :
    Alike i j off ((eventsOf os).foldl (step i revision) r)
      ((eventsOf os).foldl (step j revision) s) := by
  match os, genuine with
  | [], _ => exact h
  | o :: rest, genuine =>
    rw [allGenuine_cons] at genuine
    rw [sitesOf, List.forall_mem_append] at settled
    rw [eventsOf, List.foldl_append] at known
    rw [eventsOf, List.foldl_append, List.foldl_append]
    refine Alike.walkAll rest genuine.2 directive forward settled.2 ?_ ?_ known
    · exact Alike.walk o genuine.1 directive forward settled.1 h inside fun type ht =>
        known type (referenced_foldl i revision ht)
    · rw [foldl_definition (Genuine.inner o genuine.1)]
      exact inside
end

end Resolver

/-! ## Whole documents -/

open Resolver

variable {i j : Index} {revision : Nat} {off : Off} {r s : Resolver}

/-- Walks over a definition stay alike, from where nothing stands around it. -/
theorem Resolver.Alike.walk_definition (d : Definition) (h : Alike i j off r s)
    (settled : ∀ site ∈ (d.outline .definition).sites (some d) none, site.Settled i j revision off)
    (known : ∀ type ∈ ((d.outline .definition).events.foldl (step i revision) r).referenced
      (d.node.id revision), i.AgreeOn (.type type) j) :
    Alike i j off ((d.outline .definition).events.foldl (step i revision) r)
      ((d.outline .definition).events.foldl (step j revision) s) := by
  have forward : Forward (some d) none := fun _ h => nomatch h
  rw [d.outline_eq, sites, List.forall_mem_cons] at settled
  rw [d.outline_eq, foldl_node] at known
  rw [d.outline_eq, foldl_node, foldl_node]
  have announced : Alike i j off ((announcement .definition d.node).foldl (step i revision) r)
      ((announcement .definition d.node).foldl (step j revision) s) :=
    ⟨h.surroundings, rfl, h.inference, h.scopes, h.inputObjects⟩
  have around : d.node.directiveAround none = none := by cases d <;> rfl
  rw [around] at settled
  refine announced.walk_node rfl forward settled.1 ?_ known fun h inside known => ?_
  · intro d' hd
    cases d <;> cases hd
  · exact Alike.walkAll d.node.parts d.genuine none forward settled.2 h inside known

theorem Definition.mem_consumed {d : Definition} {name : Dependency} :
    name ∈ d.consumed ↔ (∃ n ∈ (d.outline .definition).nodes, name ∈ n.references) ∧
      d.product? ≠ some name := by
  unfold Definition.consumed
  rw [List.mem_filter, List.mem_eraseDups, List.mem_flatMap, bne_iff_ne, ne_comm]

theorem Node.references_of_lookups {n : Node} {name : Dependency} (h : name ∈ n.lookups) :
    name ∈ n.references := by
  cases n with
  | directive d => exact h
  | spread s => exact h
  | _ => cases h

mutual
theorem Outline.Genuine.not_operation : (o : Outline) → o.Genuine → ∀ n ∈ o.nodes,
    n.isOperation = false
  | .token t, _ => by simp [nodes]
  | .missing gap, _ => by simp [nodes]
  | .present content, .present h => by
    rw [nodes]
    exact AllGenuine.not_operation content h
  | .node role n parts, .node _ _ h inner => by
    rw [nodes, List.forall_mem_cons]
    exact ⟨inner, AllGenuine.not_operation parts h⟩
theorem Outline.AllGenuine.not_operation : (os : List Outline) → AllGenuine os →
    ∀ n ∈ nodesOf os, n.isOperation = false
  | [], _ => by simp [nodesOf]
  | o :: rest, h => by
    rw [allGenuine_cons] at h
    rw [nodesOf, List.forall_mem_append]
    exact ⟨Genuine.not_operation o h.1, AllGenuine.not_operation rest h.2⟩
end

/-- An operation in a definition is that definition. -/
theorem Definition.eq_node_of_isOperation {d : Definition} {n : Node}
    (hn : n ∈ (d.outline .definition).nodes) (h : n.isOperation = true) : n = d.node := by
  rw [d.outline_eq, nodes] at hn
  rcases List.mem_cons.1 hn with rfl | hn
  · rfl
  · rw [AllGenuine.not_operation _ d.genuine n hn] at h
    cases h

/-- An operation depends on the schema. -/
theorem Definition.schema_mem_consumed {d : Definition} {n : Node}
    (hn : n ∈ (d.outline .definition).nodes) (h : n.isOperation = true) : .schema ∈ d.consumed := by
  have root := Definition.eq_node_of_isOperation hn h
  refine Definition.mem_consumed.2 ⟨⟨n, hn, ?_⟩, ?_⟩
  · cases n with
    | operation o => exact List.mem_cons_of_mem _ List.mem_cons_self
    | _ => cases h
  · rw [root] at h
    cases d with
    | operation o => exact fun e => nomatch e
    | _ => cases h

/-- What is off in a document: the sites that refer back. -/
def Document.selfOff (revision : Nat) (tree : Document) : Off :=
  ⟨tree.selfReferences revision, tree.selfGiven revision⟩

/-- The names that a definition consumes settle its sites. -/
theorem Definition.settled {tree : Document} {d : Definition} (hd : d ∈ tree.definitions)
    (ordered : tree.outline.tokens.Pairwise Token.Before)
    (consumed : ∀ name ∈ d.consumed, i.AgreeOn name j) :
    ∀ site ∈ (d.outline .definition).sites (some d) none,
      site.Settled i j revision (tree.selfOff revision) := by
  intro site hs
  have within : site ∈ tree.sites := List.mem_cons_of_mem _ (List.mem_flatMap.2 ⟨d, hd, hs⟩)
  have node : site.node ∈ (d.outline .definition).nodes :=
    map_node_sites (some d) none (d.outline .definition) ▸ List.mem_map_of_mem hs
  refine ⟨Document.mem_selfReferences ordered revision within,
    Document.mem_selfGiven ordered revision within, fun forth name hn => ?_, fun h => ?_⟩
  · refine consumed name (Definition.mem_consumed.2
      ⟨⟨site.node, node, Node.references_of_lookups hn⟩, fun own => ?_⟩)
    have back : site.refersBack = true := by
      refine Site.refersBack_iff.2 ⟨name, List.mem_append_right _ hn, ?_⟩
      rw [site_definition (some d) none _ site hs]
      exact own
    rw [forth] at back
    cases back
  · exact consumed _ (Definition.schema_mem_consumed node h)

theorem Resolver.Alike.walk_definitions (h : Alike i j off r s) {definitions : List Definition}
    (settled : ∀ d ∈ definitions, ∀ site ∈ (d.outline .definition).sites (some d) none,
      site.Settled i j revision off)
    (known : ∀ d ∈ definitions,
      ∀ type ∈ ((eventsOf (definitions.map (Definition.outline .definition))).foldl
        (step i revision) r).referenced (d.node.id revision), i.AgreeOn (.type type) j) :
    Alike i j off
      ((eventsOf (definitions.map (Definition.outline .definition))).foldl (step i revision) r)
      ((eventsOf (definitions.map (Definition.outline .definition))).foldl (step j revision) s) := by
  induction definitions generalizing r s with
  | nil => exact h
  | cons d rest ih =>
    rw [List.forall_mem_cons] at settled
    rw [List.map_cons, eventsOf, List.foldl_append, List.forall_mem_cons] at known
    rw [List.map_cons, eventsOf, List.foldl_append, List.foldl_append]
    refine ih (h.walk_definition d settled.1 fun type ht => known.1 type ?_) settled.2 known.2
    exact referenced_foldl i revision ht

/-- Two indexes that agree on what the definitions of a document consume, and on the types that one
resolves them through, resolve the document alike but for what refers back. -/
theorem infer_agreeOff {revision : Revision}
    (ordered : revision.tree.outline.tokens.Pairwise Token.Before)
    (consumed : ∀ d ∈ revision.tree.definitions, ∀ name ∈ d.consumed, i.AgreeOn name j)
    (types : ∀ d ∈ revision.tree.definitions,
      ∀ type ∈ (infer i revision).referencedTypes.get (d.node.id revision.id),
        i.AgreeOn (.type type) j) :
    (infer i revision).AgreeOff (revision.tree.selfOff revision.id) (infer j revision) := by
  unfold infer at types ⊢
  rw [Document.outline, foldl_node, List.foldl_append] at types
  rw [Document.outline, foldl_node, foldl_node, List.foldl_append, List.foldl_append]
  have start : Alike i j (revision.tree.selfOff revision.id) {} {} :=
    { surroundings := rfl
      definition := rfl
      inference := .refl _ _
      scopes := fun _ h => absurd h List.not_mem_nil
      inputObjects := fun _ h => absurd h List.not_mem_nil }
  refine (start.walk_definitions (fun d hd => ?_) fun d hd => ?_).inference
  · exact d.settled hd ordered (consumed d hd)
  · exact types d hd

end GraphQL
