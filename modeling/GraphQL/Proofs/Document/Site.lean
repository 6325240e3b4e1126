import Mathlib.Data.List.Pairwise
import GraphQL.Database.Located
import GraphQL.Proofs.Document.Genuine
import GraphQL.Proofs.Production.Parse
import GraphQL.Proofs.Token.Order

/-! # Where nodes stand

A `Site` is a node of a document together with the definition it is in and the directive whose
arguments it belongs to. `Document.sites` lists the sites of a document in the order of a walk.

Nodes that start with a token of their own are told apart by their identities, `site_unique`: their
first tokens are different tokens of one text, and start at different places. -/

namespace GraphQL

set_option autoImplicit false

open Outline

/-- A node where it stands. -/
structure Site where
  /-- The definition it is in; the document itself is in none. -/
  definition : Option Definition
  /-- The directive in whose arguments it is. -/
  directive : Option Directive
  node : Node

/-- The directive around the parts of a node, if there was one around the node. -/
def Node.directiveAround (outer : Option Directive) : Node → Option Directive
  | .directive d => some d
  | _ => outer

variable (definition : Option Definition)

namespace Outline

mutual
/-- The nodes of an outline where they stand, given what stands around it. -/
def sites (directive : Option Directive) : Outline → List Site
  | .token _ => []
  | .missing _ => []
  | .present content => sitesOf directive content
  | .node _ n parts =>
    ⟨definition, directive, n⟩ :: sitesOf (n.directiveAround directive) parts
/-- The nodes of several outlines where they stand. -/
def sitesOf (directive : Option Directive) : List Outline → List Site
  | [] => []
  | outline :: rest => outline.sites directive ++ sitesOf directive rest
end

end Outline

/-- The nodes of a document where they stand. -/
def Document.sites (document : Document) : List Site :=
  ⟨none, none, .document document⟩ ::
    document.definitions.flatMap fun d => (d.outline .definition).sites (some d) none

mutual
theorem Outline.map_node_sites (directive : Option Directive) :
    (o : Outline) → (o.sites definition directive).map Site.node = o.nodes
  | .token t => by rw [sites, nodes, List.map_nil]
  | .missing gap => by rw [sites, nodes, List.map_nil]
  | .present content => by rw [sites, nodes, Outline.map_node_sitesOf]
  | .node role n parts => by rw [sites, nodes, List.map_cons, Outline.map_node_sitesOf]
theorem Outline.map_node_sitesOf (directive : Option Directive) :
    (os : List Outline) → (sitesOf definition directive os).map Site.node = nodesOf os
  | [] => by rw [sitesOf, nodesOf, List.map_nil]
  | o :: rest => by
    rw [sitesOf, nodesOf, List.map_append, Outline.map_node_sites, Outline.map_node_sitesOf]
end

mutual
theorem Outline.site_definition (directive : Option Directive) :
    (o : Outline) → ∀ site ∈ o.sites definition directive, site.definition = definition
  | .token t => by simp [sites]
  | .missing gap => by simp [sites]
  | .present content => by
    rw [sites]
    exact Outline.site_definition_all directive content
  | .node role n parts => by
    rw [sites, List.forall_mem_cons]
    exact ⟨rfl, Outline.site_definition_all (n.directiveAround directive) parts⟩
theorem Outline.site_definition_all (directive : Option Directive) :
    (os : List Outline) → ∀ site ∈ sitesOf definition directive os, site.definition = definition
  | [] => by simp [sitesOf]
  | o :: rest => by
    rw [sitesOf, List.forall_mem_append]
    exact ⟨Outline.site_definition directive o, Outline.site_definition_all directive rest⟩
end

theorem nodesOf_map {α : Type} (outline : α → Outline) (items : List α) :
    nodesOf (items.map outline) = items.flatMap fun a => (outline a).nodes := by
  induction items with
  | nil => rfl
  | cons a items ih => rw [List.map_cons, nodesOf, ih, List.flatMap_cons]

/-- The sites of a document are those of all its nodes. -/
theorem Document.map_node_sites (document : Document) :
    document.sites.map Site.node = document.outline.nodes := by
  rw [Document.sites, Document.outline, nodes, nodesOf_map, List.map_cons, List.map_flatMap]
  simp only [Outline.map_node_sites]

/-! ## First tokens -/

/-- The first of several outlines, if it is a token. -/
def firstToken? : List Outline → Option Token
  | .token t :: _ => some t
  | _ => none

/-- The token that a node starts with, if the first part of the node is a token. -/
def Node.head? (n : Node) : Option Token := firstToken? n.parts

def Site.head? (site : Site) : Option Token := site.node.head?

/-- Kinds of nodes that start with a token of their own. -/
def NodeKind.isHeaded : NodeKind → Bool
  | .arguments | .argument | .fragmentSpread | .directive | .variableValue | .intValue | .floatValue
  | .stringValue | .booleanValue | .nullValue | .enumValue | .listValue | .objectValue
  | .objectField => true
  | _ => false

theorem Node.head?_of_isHeaded {n : Node} (h : n.kind.isHeaded = true) : ∃ t, n.head? = some t := by
  cases n with
  | arguments a => exact ⟨a.opening, rfl⟩
  | argument a => exact ⟨a.name, rfl⟩
  | spread s => exact ⟨s.dots, rfl⟩
  | directive d => exact ⟨d.sign, rfl⟩
  | value v => cases v <;> exact ⟨_, rfl⟩
  | objectField f => cases f; exact ⟨_, rfl⟩
  | type t =>
    cases t with
    | nullable t => cases t <;> cases h
    | nonNull t bang => cases h
  | typeDefinition d =>
    rw [Node.kind] at h
    cases hk : d.body.kind <;> rw [hk] at h <;> cases h
  | typeExtension d =>
    rw [Node.kind] at h
    cases hk : d.body.kind <;> rw [hk] at h <;> cases h
  | _ => cases h

mutual
theorem Outline.heads_sublist (directive : Option Directive) : (o : Outline) → o.Genuine →
    ((o.sites definition directive).filterMap Site.head?).Sublist o.tokens
  | .token t, _ => by simp [sites]
  | .missing gap, _ => by simp [sites]
  | .present content, .present h => by
    rw [sites, tokens]
    exact Outline.headsOf_sublist directive content h
  | .node role n parts, .node _ own h _ => by
    rw [sites, tokens]
    exact Outline.heads_node_sublist directive n parts own h
theorem Outline.headsOf_sublist (directive : Option Directive) : (os : List Outline) →
    AllGenuine os → ((sitesOf definition directive os).filterMap Site.head?).Sublist (tokensOf os)
  | [], _ => by simp [sitesOf]
  | o :: rest, h => by
    rw [allGenuine_cons] at h
    rw [sitesOf, tokensOf, List.filterMap_append]
    exact (Outline.heads_sublist directive o h.1).append (Outline.headsOf_sublist directive rest h.2)
theorem Outline.heads_node_sublist (directive : Option Directive) (n : Node) :
    (parts : List Outline) → n.parts = parts → AllGenuine parts →
    ((⟨definition, directive, n⟩ :: sitesOf definition (n.directiveAround directive) parts).filterMap
      Site.head?).Sublist (tokensOf parts)
  | [], own, _ => by simp [sitesOf, Site.head?, Node.head?, own, firstToken?]
  | o :: rest, own, h => by
    rw [allGenuine_cons] at h
    have first := Outline.heads_sublist (n.directiveAround directive) o h.1
    have later := Outline.headsOf_sublist (n.directiveAround directive) rest h.2
    rw [List.filterMap_cons, Site.head?, Node.head?, own]
    cases o with
    | token t =>
      rw [sitesOf, sites, tokensOf, tokens, List.nil_append, List.singleton_append]
      exact later.cons_cons t
    | _ =>
      rw [sitesOf, tokensOf, List.filterMap_append]
      exact first.append later
end

/-! ## Identity -/

theorem Definition.heads_sublist (d : Definition) :
    (((d.outline .definition).sites (some d) none).filterMap Site.head?).Sublist
      (d.outline .definition).tokens := by
  rw [d.outline_eq, sites, tokens]
  exact Outline.heads_node_sublist (some d) none d.node d.node.parts rfl d.genuine

theorem Document.heads_sublist (document : Document) :
    (document.sites.filterMap Site.head?).Sublist document.outline.tokens := by
  have head : (Node.document document).head? = none := by
    obtain ⟨_ | ⟨d, rest⟩⟩ := document
    · rfl
    · show firstToken? (d.outline .definition :: _) = none
      rw [d.outline_eq]
      rfl
  rw [Document.sites, Document.outline, tokens, tokensOf_map, List.filterMap_cons, Site.head?, head]
  show ((document.definitions.flatMap _).filterMap Site.head?).Sublist _
  induction document.definitions with
  | nil => exact List.Sublist.refl []
  | cons d rest ih =>
    rw [List.flatMap_cons, List.flatMap_cons, List.filterMap_append]
    exact d.heads_sublist.append ih

mutual
theorem Outline.node_tokens_sublist : (o : Outline) → o.Genuine → ∀ n ∈ o.nodes,
    n.outline.tokens.Sublist o.tokens
  | .token t, _ => by simp [nodes]
  | .missing gap, _ => by simp [nodes]
  | .present content, .present h => by
    rw [nodes, tokens]
    exact Outline.node_tokensOf_sublist content h
  | .node role m parts, .node _ own h _ => by
    rw [nodes, tokens, List.forall_mem_cons]
    exact ⟨by rw [m.tokens_outline, own], Outline.node_tokensOf_sublist parts h⟩
theorem Outline.node_tokensOf_sublist : (os : List Outline) → AllGenuine os → ∀ n ∈ nodesOf os,
    n.outline.tokens.Sublist (tokensOf os)
  | [], _ => by simp [nodesOf]
  | o :: rest, h => by
    rw [allGenuine_cons] at h
    rw [nodesOf, tokensOf]
    intro n hn
    rcases List.mem_append.1 hn with hn | hn
    · exact (Outline.node_tokens_sublist o h.1 n hn).trans (List.sublist_append_left _ _)
    · exact (Outline.node_tokensOf_sublist rest h.2 n hn).trans (List.sublist_append_right _ _)
end

theorem Definition.node_tokens_sublist (d : Definition) :
    ∀ n ∈ (d.outline .definition).nodes,
      n.outline.tokens.Sublist (d.outline .definition).tokens := by
  rw [d.outline_eq, nodes, tokens, List.forall_mem_cons]
  exact ⟨by rw [d.node.tokens_outline], Outline.node_tokensOf_sublist _ d.genuine⟩

/-- The tokens of a node of a document are some of the tokens of the document, in order. -/
theorem Document.node_tokens_sublist (document : Document) :
    ∀ n ∈ document.outline.nodes, n.outline.tokens.Sublist document.outline.tokens := by
  rw [Document.outline, nodes, nodesOf_map, List.forall_mem_cons]
  refine ⟨List.Sublist.refl _, fun n hn => ?_⟩
  obtain ⟨d, hd, hn⟩ := List.mem_flatMap.1 hn
  rw [tokens, tokensOf_map]
  refine (d.node_tokens_sublist n hn).trans ?_
  rw [List.flatMap_def]
  exact List.sublist_flatten_of_mem (List.mem_map_of_mem hd)

theorem Document.site_tokens_sublist (document : Document) {site : Site}
    (h : site ∈ document.sites) : site.node.outline.tokens.Sublist document.outline.tokens :=
  document.node_tokens_sublist _ (document.map_node_sites ▸ List.mem_map_of_mem h)

theorem start_of_head {n : Node} {t : Token} (h : n.head? = some t)
    (ordered : n.outline.tokens.Pairwise Token.Before) :
    n.span?.map Span.start = some t.span.start := by
  have hp : ∃ rest, n.parts = .token t :: rest := by
    unfold Node.head? firstToken? at h
    split at h
    · next heq => exact ⟨_, by rw [heq, Option.some.inj h]⟩
    · cases h
  obtain ⟨rest, hp⟩ := hp
  have tokens_eq : n.outline.tokens = t :: tokensOf rest := by
    rw [n.tokens_outline, hp, tokensOf, tokens, List.singleton_append]
  rw [tokens_eq] at ordered
  rw [Node.span?, tokens_eq]
  exact cover_start ordered

/-- Sites of a document of a text start one after the other. -/
theorem Document.heads_increase {document : Document}
    (ordered : document.outline.tokens.Pairwise Token.Before) :
    document.sites.Pairwise fun a b =>
      ∀ t ∈ a.head?, ∀ t' ∈ b.head?, t.span.start < t'.span.start :=
  List.pairwise_filterMap.1 ((ordered.sublist document.heads_sublist).imp Token.Before.start_lt)

/-- No two sites of a document of a text start with the same token. -/
theorem Document.heads_apart {document : Document}
    (ordered : document.outline.tokens.Pairwise Token.Before) :
    document.sites.Pairwise fun a b =>
      ∀ t ∈ a.head?, ∀ t' ∈ b.head?, t.span.start ≠ t'.span.start :=
  (Document.heads_increase ordered).imp fun h t ht t' ht' => Int.ne_of_lt (h t ht t' ht')

/-- Sites of a document of a text that start at the same place are one. -/
theorem site_eq_of_start {document : Document}
    (ordered : document.outline.tokens.Pairwise Token.Before) {s s' : Site}
    (hs : s ∈ document.sites) (hs' : s' ∈ document.sites) {t t' : Token} (ht : t ∈ s.head?)
    (ht' : t' ∈ s'.head?) (starts : t.span.start = t'.span.start) : s = s' := by
  by_contra different
  have symm : Std.Symm fun a b : Site =>
      ∀ t ∈ a.head?, ∀ t' ∈ b.head?, t.span.start ≠ t'.span.start :=
    ⟨fun a b h t ht t' ht' => (h t' ht' t ht).symm⟩
  exact (Document.heads_apart ordered).forall hs hs' different t ht t' ht' starts

/-- Headed nodes of the same identity start with the same token. -/
theorem heads_of_id_eq {document : Document}
    (ordered : document.outline.tokens.Pairwise Token.Before) {revision : Nat} {s s' : Site}
    (hs : s ∈ document.sites) (hs' : s' ∈ document.sites) (headed : s.node.kind.isHeaded = true)
    (same : s.node.id revision = s'.node.id revision) :
    ∃ t ∈ s.head?, ∃ t' ∈ s'.head?, t.span.start = t'.span.start := by
  have headed' : s'.node.kind.isHeaded = true := by
    rw [← headed, ← show s.node.kind = s'.node.kind from congrArg NodeId.kind same]
  obtain ⟨t, ht⟩ := Node.head?_of_isHeaded headed
  obtain ⟨t', ht'⟩ := Node.head?_of_isHeaded headed'
  have h := start_of_head ht (ordered.sublist (document.site_tokens_sublist hs))
  have h' := start_of_head ht' (ordered.sublist (document.site_tokens_sublist hs'))
  rw [show s.node.span? = s'.node.span? from congrArg NodeId.span same, h'] at h
  exact ⟨t, ht, t', ht', (Option.some.inj h).symm⟩

/-- A document of a text has no two headed nodes of the same identity. -/
theorem site_unique {document : Document}
    (ordered : document.outline.tokens.Pairwise Token.Before) {revision : Nat} {s s' : Site}
    (hs : s ∈ document.sites) (hs' : s' ∈ document.sites) (headed : s.node.kind.isHeaded = true)
    (same : s.node.id revision = s'.node.id revision) : s = s' := by
  obtain ⟨t, ht, t', ht', starts⟩ := heads_of_id_eq ordered hs hs' headed same
  exact site_eq_of_start ordered hs hs' ht ht' starts

/-- Nodes of a document of a text that start with a token and have one identity are the same. -/
theorem node_eq_of_head {document : Document}
    (ordered : document.outline.tokens.Pairwise Token.Before) {revision : Nat} {n m : Node}
    (hn : n ∈ document.outline.nodes) (hm : m ∈ document.outline.nodes) {t t' : Token}
    (ht : n.head? = some t) (ht' : m.head? = some t') (same : n.id revision = m.id revision) :
    n = m := by
  have start := start_of_head ht (ordered.sublist (document.node_tokens_sublist n hn))
  have start' := start_of_head ht' (ordered.sublist (document.node_tokens_sublist m hm))
  rw [show n.span? = m.span? from congrArg NodeId.span same, start'] at start
  rw [← document.map_node_sites] at hn hm
  obtain ⟨s, hs, rfl⟩ := List.mem_map.1 hn
  obtain ⟨s', hs', rfl⟩ := List.mem_map.1 hm
  rw [site_eq_of_start ordered hs hs' ht ht' (Option.some.inj start).symm]

/-! ## Documents of a text -/

theorem parse_leaves_before (source : Int) (text : Text) :
    (parse source text).tree.outline.tokens.Pairwise Token.Before := by
  obtain ⟨places, blocks, share⟩ := parse_partition source text
  rw [share.leaves_eq]
  refine List.pairwise_filterMap.2 (share.places_increasing.imp fun {i j} hij t ht t' ht' => ?_)
  rw [List.getElem?_toArray] at ht ht'
  obtain ⟨hi, rfl⟩ := List.getElem?_eq_some_iff.1 ht
  obtain ⟨hj, rfl⟩ := List.getElem?_eq_some_iff.1 ht'
  exact List.pairwise_iff_getElem.1 (lex_pairwise source text) i j hi hj hij

end GraphQL
