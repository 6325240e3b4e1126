import GraphQL.Dependency
import GraphQL.Proofs.Document.Site

/-! # Definitions that refer to what they provide

A fragment may spread itself, and a directive may be applied inside its own definition. A site
*refers back* if it is looked up by a name that the definition around it provides. What is given to
a directive is looked up by the name of the directive.

* `Document.selfReferences` lists the identities of the sites that refer back,
* `Document.mem_selfReferences`: they are no other site's identities,
* `Directive.given`: inside an applied directive there are only arguments and values. -/

namespace GraphQL

set_option autoImplicit false

open Outline
open Recovery (Slot)

/-! ## Lookups by name -/

/-- The directives and fragments that a node is looked up by. -/
def Node.lookups : Node → List Dependency
  | .directive d => (Node.directive d).references
  | .spread s => (Node.spread s).references
  | _ => []

/-- The directives and fragments that a site is looked up by. -/
def Site.lookups (site : Site) : List Dependency :=
  (site.directive.toList.flatMap fun d => (Node.directive d).references) ++ site.node.lookups

/-- The site is looked up by a name that the definition around it provides. -/
def Site.refersBack (site : Site) : Bool :=
  site.lookups.any fun name => site.definition.bind Definition.product? == some name

theorem Site.refersBack_iff {site : Site} :
    site.refersBack = true ↔
      ∃ name ∈ site.lookups, site.definition.bind Definition.product? = some name := by
  simp [Site.refersBack]

/-- The directive is looked up by names that the definition does not provide. -/
def Forward (definition : Option Definition) (directive : Option Directive) : Prop :=
  ∀ d ∈ directive, ∀ name ∈ (Node.directive d).references,
    definition.bind Definition.product? ≠ some name

theorem Forward.refersBack_iff {site : Site} (h : Forward site.definition site.directive) :
    site.refersBack = true ↔
      ∃ name ∈ site.node.lookups, site.definition.bind Definition.product? = some name := by
  rw [Site.refersBack_iff, Site.lookups]
  constructor
  · rintro ⟨name, hn, own⟩
    rcases List.mem_append.1 hn with hn | hn
    · obtain ⟨d, hd, hn⟩ := List.mem_flatMap.1 hn
      exact absurd own (h d (by simpa using hd) name hn)
    · exact ⟨name, hn, own⟩
  · rintro ⟨name, hn, own⟩
    exact ⟨name, List.mem_append_right _ hn, own⟩

/-- A node that does not refer back keeps what is in it from doing so by the name of a directive. -/
theorem Forward.around {definition : Option Definition} {directive : Option Directive} {n : Node}
    (h : Forward definition directive)
    (other : ∀ d, n = .directive d →
      (⟨definition, directive, n⟩ : Site).refersBack = false) :
    Forward definition (n.directiveAround directive) := by
  cases n with
  | directive d =>
    intro d' hd name hn own
    cases hd
    have back := @Forward.refersBack_iff ⟨definition, directive, .directive d⟩ h |>.2
      ⟨name, hn, own⟩
    rw [other d rfl] at back
    cases back
  | _ => exact h

/-- The identities of some sites of a document. -/
def Document.siteIds (p : Site → Bool) (revision : Nat) (document : Document) : List NodeId :=
  (document.sites.filter p).map fun site => site.node.id revision

/-- The identities of the sites of a document that refer back. -/
def Document.selfReferences : Nat → Document → List NodeId := Document.siteIds Site.refersBack

/-- The identities of what is given to directives of a document that refer back. -/
def Document.selfGiven : Nat → Document → List NodeId :=
  Document.siteIds fun site => site.refersBack && site.directive.isSome

/-! ## What is given to a directive -/

/-- Argument lists and what is in them. -/
def Node.isGiven : Node → Bool
  | .arguments _ => true
  | .argument _ => true
  | .value _ => true
  | .objectField _ => true
  | _ => false

theorem Node.isHeaded_of_isGiven {n : Node} (h : n.isGiven = true) : n.kind.isHeaded = true := by
  cases n with
  | value v => cases v <;> rfl
  | arguments a => rfl
  | argument a => rfl
  | objectField f => rfl
  | _ => cases h

namespace Outline

variable {α : Type}

/-- Only argument lists and what is in them. -/
def Given (o : Outline) : Prop := ∀ n ∈ o.nodes, n.isGiven = true

/-- Only argument lists and what is in them. -/
def AllGiven (os : List Outline) : Prop := ∀ n ∈ nodesOf os, n.isGiven = true

@[simp] theorem given_token (t : Token) : (Outline.token t).Given := by simp [Given, nodes]

@[simp] theorem given_missing (gap : Recovery.Gap Expectation) : (Outline.missing gap).Given := by
  simp [Given, nodes]

@[simp] theorem given_present {content : List Outline} :
    (Outline.present content).Given ↔ AllGiven content := by simp [Given, AllGiven, nodes]

@[simp] theorem given_node {role : Role} {n : Node} {parts : List Outline} :
    (Outline.node role n parts).Given ↔ n.isGiven = true ∧ AllGiven parts := by
  simp [Given, AllGiven, nodes]

@[simp] theorem allGiven_nil : AllGiven [] := by simp [AllGiven, nodesOf]

@[simp] theorem allGiven_cons {o : Outline} {os : List Outline} :
    AllGiven (o :: os) ↔ o.Given ∧ AllGiven os := by
  simp [Given, AllGiven, nodesOf, or_imp, forall_and]

@[simp] theorem allGiven_append {os rest : List Outline} :
    AllGiven (os ++ rest) ↔ AllGiven os ∧ AllGiven rest := by
  induction os with
  | nil => simp
  | cons o os ih => simp [ih, and_assoc]

@[simp] theorem allGiven_map {outline : α → Outline} {items : List α} :
    AllGiven (items.map outline) ↔ ∀ x ∈ items, (outline x).Given := by
  induction items with
  | nil => simp
  | cons x items ih => simp [ih]

@[simp] theorem given_tokenSlot (t : Required Token) : (tokenSlot t).Given := by
  cases t <;> simp [tokenSlot, single, slot]

@[simp] theorem given_single {outline : α → Outline} {a : Required α} :
    (single outline a).Given ↔ ∀ x ∈ a.value?, (outline x).Given := by
  cases a <;> simp [single, slot, Slot.value?]

@[simp] theorem allGiven_optional {outline : α → Outline} {a : Option α} :
    AllGiven (optional outline a) ↔ ∀ x ∈ a, (outline x).Given := by
  cases a <;> simp [optional]

@[simp] theorem allGiven_delimited {outline : α → Outline} {items : Delimited α} :
    AllGiven (delimited outline items) ↔ ∀ x ∈ items.items, (outline x).Given := by
  simp [delimited]

end Outline

mutual
theorem Value.given (role : Role) : (v : Value) → (v.outline role).Given
  | .var v => by simp [Value.outline, Node.isGiven]
  | .int t => by simp [Value.outline, Node.isGiven]
  | .float t => by simp [Value.outline, Node.isGiven]
  | .string t => by simp [Value.outline, Node.isGiven]
  | .boolean t value => by simp [Value.outline, Node.isGiven]
  | .null t => by simp [Value.outline, Node.isGiven]
  | .enum t => by simp [Value.outline, Node.isGiven]
  | .list ⟨opening, items, closing⟩ => by
    rw [Value.outline_list, given_node, allGiven_delimited]
    exact ⟨rfl, Value.given_items items⟩
  | .object ⟨opening, fields, closing⟩ => by
    rw [Value.outline_object, given_node, allGiven_delimited]
    exact ⟨rfl, ObjectField.given_items fields⟩
theorem Value.given_items : (items : List Value) → ∀ v ∈ items, (v.outline .value).Given
  | [] => by simp
  | v :: items => by simpa [Value.given .value v] using Value.given_items items
theorem ObjectField.given : (field : ObjectField) → field.outline.Given
  | .mk name colon (.missing gap) => by
    rw [ObjectField.outline_mk, given_node]
    simp [Node.isGiven, Slot.value?]
  | .mk name colon (.present value) => by
    have h := Value.given .value value
    rw [ObjectField.outline_mk, given_node]
    simp [Node.isGiven, Slot.value?, h]
theorem ObjectField.given_items : (fields : List ObjectField) → ∀ f ∈ fields, f.outline.Given
  | [] => by simp
  | field :: fields => by
    simpa [ObjectField.given field] using ObjectField.given_items fields
end

theorem Argument.given (a : Argument) : a.outline.Given := by
  have h : (single (Value.outline .value) a.value).Given :=
    given_single.2 fun v _ => v.given .value
  rw [Argument.outline, given_node]
  simp [Node.isGiven, h]

theorem Arguments.given (a : Arguments) : (Arguments.outline a).Given := by
  rw [Arguments.outline, given_node, allGiven_delimited]
  exact ⟨rfl, fun a _ => a.given⟩

/-- Inside an applied directive there are only arguments and values. -/
theorem Directive.given (d : Directive) : AllGiven (Node.directive d).parts := by
  show AllGiven (.token d.sign :: tokenSlot d.name :: optional Arguments.outline d.arguments)
  have h : AllGiven (optional Arguments.outline d.arguments) :=
    allGiven_optional.2 fun a _ => Arguments.given a
  simp [h]

mutual
theorem Outline.site_directive (definition : Option Definition) (directive : Option Directive) :
    (o : Outline) → o.Given → ∀ site ∈ o.sites definition directive, site.directive = directive
  | .token t, _ => by simp [sites]
  | .missing gap, _ => by simp [sites]
  | .present content, h => by
    rw [given_present] at h
    rw [sites]
    exact Outline.site_directive_all definition directive content h
  | .node role n parts, h => by
    rw [given_node] at h
    have around : n.directiveAround directive = directive := by
      cases n with
      | directive d => cases h.1
      | _ => rfl
    rw [sites, List.forall_mem_cons, around]
    exact ⟨rfl, Outline.site_directive_all definition directive parts h.2⟩
theorem Outline.site_directive_all (definition : Option Definition)
    (directive : Option Directive) : (os : List Outline) → AllGiven os →
    ∀ site ∈ sitesOf definition directive os, site.directive = directive
  | [], _ => by simp [sitesOf]
  | o :: rest, h => by
    rw [allGiven_cons] at h
    rw [sitesOf, List.forall_mem_append]
    exact ⟨Outline.site_directive definition directive o h.1,
      Outline.site_directive_all definition directive rest h.2⟩
end

/-! ## Sites that refer back -/

mutual
theorem Outline.site_given (definition : Option Definition) : (o : Outline) → o.Genuine →
    ∀ site ∈ o.sites definition none, site.directive ≠ none → site.node.isGiven = true
  | .token t, _ => by simp [sites]
  | .missing gap, _ => by simp [sites]
  | .present content, .present h => by
    rw [sites]
    exact Outline.site_given_all definition content h
  | .node role n parts, .node _ own h _ => by
    rw [sites, List.forall_mem_cons]
    exact ⟨fun hd => absurd rfl hd, Outline.site_given_parts definition n parts own h⟩
theorem Outline.site_given_all (definition : Option Definition) : (os : List Outline) →
    AllGenuine os → ∀ site ∈ sitesOf definition none os, site.directive ≠ none →
    site.node.isGiven = true
  | [], _ => by simp [sitesOf]
  | o :: rest, h => by
    rw [allGenuine_cons] at h
    rw [sitesOf, List.forall_mem_append]
    exact ⟨Outline.site_given definition o h.1, Outline.site_given_all definition rest h.2⟩
theorem Outline.site_given_parts (definition : Option Definition) (n : Node) :
    (parts : List Outline) → n.parts = parts → AllGenuine parts →
    ∀ site ∈ sitesOf definition (n.directiveAround none) parts, site.directive ≠ none →
    site.node.isGiven = true
  | parts, own, h => by
    cases n with
    | directive d =>
      intro site hs _
      refine d.given site.node ?_
      rw [own, ← Outline.map_node_sitesOf definition (some d)]
      exact List.mem_map_of_mem hs
    | _ => exact Outline.site_given_all definition parts h
end

theorem Document.site_given (document : Document) :
    ∀ site ∈ document.sites, site.directive ≠ none → site.node.isGiven = true := by
  rw [Document.sites, List.forall_mem_cons]
  refine ⟨fun hd => absurd rfl hd, fun site hs => ?_⟩
  obtain ⟨d, -, hs⟩ := List.mem_flatMap.1 hs
  rw [d.outline_eq, Outline.sites] at hs
  rcases List.mem_cons.1 hs with rfl | hs
  · exact fun hd => absurd rfl hd
  · exact Outline.site_given_parts (some d) d.node _ rfl d.genuine site hs

/-- What refers back starts with a token of its own. -/
theorem Document.isHeaded_of_refersBack (document : Document) {site : Site}
    (hs : site ∈ document.sites) (h : site.refersBack = true) :
    site.node.kind.isHeaded = true := by
  by_cases hd : site.directive = none
  · obtain ⟨name, hn, -⟩ := Site.refersBack_iff.1 h
    rw [Site.lookups, hd] at hn
    cases hnode : site.node with
    | directive d => rfl
    | spread s => rfl
    | _ =>
      rw [hnode] at hn
      exact absurd hn List.not_mem_nil
  · exact Node.isHeaded_of_isGiven (document.site_given site hs hd)

/-- Where some sites start with tokens of their own, no other site has an identity of theirs. -/
theorem Document.mem_siteIds {document : Document}
    (ordered : document.outline.tokens.Pairwise Token.Before) {p : Site → Bool}
    (headed : ∀ site ∈ document.sites, p site = true → site.node.kind.isHeaded = true)
    (revision : Nat) {site : Site} (hs : site ∈ document.sites) :
    site.node.id revision ∈ document.siteIds p revision ↔ p site = true := by
  constructor
  · intro h
    obtain ⟨other, ho, same⟩ := List.mem_map.1 h
    obtain ⟨ho, back⟩ := List.mem_filter.1 ho
    rwa [← site_unique ordered ho hs (headed other ho back) same]
  · exact fun h => List.mem_map_of_mem (List.mem_filter.2 ⟨hs, h⟩)

variable {document : Document} (ordered : document.outline.tokens.Pairwise Token.Before)
  (revision : Nat) {site : Site} (hs : site ∈ document.sites)

include ordered hs in
theorem Document.mem_selfReferences :
    site.node.id revision ∈ document.selfReferences revision ↔ site.refersBack = true :=
  Document.mem_siteIds ordered (fun _ ho => document.isHeaded_of_refersBack ho) revision hs

include ordered hs in
theorem Document.mem_selfGiven :
    site.node.id revision ∈ document.selfGiven revision ↔
      site.refersBack = true ∧ site.directive ≠ none := by
  have headed : ∀ other ∈ document.sites, (other.refersBack && other.directive.isSome) = true →
      other.node.kind.isHeaded = true := fun other ho back =>
    document.isHeaded_of_refersBack ho (Bool.and_eq_true_iff.1 back).1
  unfold Document.selfGiven
  rw [Document.mem_siteIds ordered headed revision hs, Bool.and_eq_true, Option.isSome_iff_ne_none]

end GraphQL
