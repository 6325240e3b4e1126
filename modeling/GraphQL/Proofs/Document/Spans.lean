import GraphQL.Proofs.Document.Constituents
import GraphQL.Proofs.Document.Site
import GraphQL.Proofs.Token.Tiling

/-! # Spans of nodes

The span of a node is the join of the spans of its children, for `Span.join` is associative. In a
document of a text it runs from the first token of the node to the last one, and the spans of
children follow each other, `parse_spans`. -/

namespace GraphQL

set_option autoImplicit false

/-! ## Joins -/

namespace Span

theorem join_assoc (a b c : Span) : (a.join b).join c = a.join (b.join c) := by
  rw [join, join, join, join, Int.min_assoc, Int.max_assoc]

instance : Std.Associative join := ⟨join_assoc⟩

variable {α : Type}

theorem foldl_join_flatMap (spans : α → List Span) (items : List α) (s : Span) :
    (items.flatMap spans).foldl join s =
      (items.filterMap fun a => cover (spans a)).foldl join s := by
  induction items generalizing s with
  | nil => rfl
  | cons a items ih =>
    rw [List.flatMap_cons, List.foldl_append, ih]
    cases h : spans a with
    | nil => rw [List.filterMap_cons_none (by rw [h, cover]), List.foldl_nil]
    | cons r rest =>
      rw [List.filterMap_cons_some (b := rest.foldl join r) (by rw [h, cover]), List.foldl_cons,
        List.foldl_cons, List.foldl_assoc]

/-- What covers lists covers the covers of the lists. -/
theorem cover_flatMap (spans : α → List Span) (items : List α) :
    cover (items.flatMap spans) = cover (items.filterMap fun a => cover (spans a)) := by
  induction items with
  | nil => rfl
  | cons a items ih =>
    cases h : spans a with
    | nil => rw [List.flatMap_cons, h, List.nil_append, ih, List.filterMap_cons_none (by rw [h, cover])]
    | cons r rest =>
      rw [List.flatMap_cons, h, List.cons_append, cover, List.foldl_append, foldl_join_flatMap,
        List.filterMap_cons_some (b := rest.foldl join r) (by rw [h, cover]), cover]

theorem foldl_join_source (s : Span) (rest : List Span) :
    (rest.foldl join s).source = s.source := by
  induction rest generalizing s with
  | nil => rfl
  | cons r rest ih => exact ih (s.join r)

/-- Spans that end one after the other end with the last one. -/
theorem foldl_join_stop (s : Span) (rest : List Span)
    (h : ((s :: rest).map stop).Pairwise (· ≤ ·)) :
    ((s :: rest).map stop).getLast? = some (rest.foldl join s).stop := by
  induction rest generalizing s with
  | nil => rfl
  | cons r rest ih =>
    rw [List.map_cons] at h
    have later : s.stop ≤ r.stop := List.rel_of_pairwise_cons h List.mem_cons_self
    have stop : (s.join r).stop = r.stop := Int.max_eq_right later
    have same : ((s.join r) :: rest).map Span.stop = (r :: rest).map Span.stop := by
      rw [List.map_cons, List.map_cons, stop]
    rw [List.foldl_cons, ← ih (s.join r) (same ▸ h.of_cons), same, List.map_cons, List.map_cons,
      List.getLast?_cons_cons]

end Span

/-! ## Tokens in order -/

namespace Token

/-- Tokens of one document that follow each other, none of them empty. -/
structure InLine (source : Int) (tokens : List Token) : Prop where
  ordered : tokens.Pairwise Token.Before
  proper : ∀ t ∈ tokens, t.span.source = source ∧ t.span.start < t.span.stop

variable {source : Int} {tokens : List Token}

theorem InLine.sublist {chosen : List Token} (h : InLine source tokens)
    (sub : chosen.Sublist tokens) : InLine source chosen :=
  ⟨h.ordered.sublist sub, fun t ht => h.proper t (sub.subset ht)⟩

theorem InLine.stops (h : InLine source tokens) :
    ((tokens.map Token.span).map Span.stop).Pairwise (· ≤ ·) := by
  rw [List.map_map, List.pairwise_map]
  refine h.ordered.imp_of_mem fun {s t} _ ht before => ?_
  exact Int.le_of_lt (Int.lt_of_le_of_lt before.2 (h.proper t ht).2)

/-- The span of tokens that follow each other runs from the first one to the last one. -/
theorem InLine.cover (h : InLine source tokens) (held : tokens ≠ []) :
    ∃ first last, tokens.head? = some first ∧ tokens.getLast? = some last ∧
      Span.cover (tokens.map Token.span) = some ⟨source, first.span.start, last.span.stop⟩ := by
  obtain ⟨first, rest, rfl⟩ := List.exists_cons_of_ne_nil held
  obtain ⟨last, ends⟩ : ∃ last, (first :: rest).getLast? = some last :=
    ⟨_, List.getLast?_eq_some_getLast held⟩
  have start := cover_start h.ordered
  have stop := Span.foldl_join_stop first.span (rest.map Token.span) h.stops
  rw [← List.map_cons, List.map_map, List.getLast?_map, ends] at stop
  have source_eq := (h.proper first List.mem_cons_self).1
  refine ⟨first, last, rfl, ends, ?_⟩
  rw [List.map_cons, Span.cover, Option.map_some] at start
  rw [List.map_cons, Span.cover, ← source_eq, ← Option.some.inj start,
    show last.span.stop = _ from Option.some.inj stop,
    ← Span.foldl_join_source first.span (rest.map Token.span)]

end Token

theorem lex_inLine (source : Int) (text : Text) : Token.InLine source (lex source text) := by
  refine ⟨lex_pairwise source text, fun t ht => ?_⟩
  obtain ⟨i, j, stands⟩ := (Lexer.lexFrom_tiles source 0 text).place [] rfl not_false t ht
  rw [stands.span]
  exact ⟨rfl, Int.ofNat_lt.2 stands.lt⟩

/-! ## Spans that a visitor collects -/

/-- The span that a call reports. -/
def Callback.span? : Callback → Option Span
  | .span s => some s
  | _ => none

theorem Event.spans_callbacks (e : Event) :
    e.callbacks.filterMap Callback.span? = (e.token?.map Token.span).toList := by
  cases e <;> rfl

theorem Node.spans_callbacks (n : Node) :
    n.callbacks.filterMap Callback.span? = n.outline.tokens.map Token.span := by
  rw [Node.callbacks, List.filterMap_flatMap, Outline.tokens_eq, ← Outline.tokens_events,
    List.map_filterMap, List.filterMap_eq_flatMap_toList]
  simp only [Event.spans_callbacks]

/-! ## Spans of children -/

def Child.span? : Child → Option Span
  | .token t => some t.span
  | .node n => n.span?

theorem Child.span?_eq (c : Child) : c.span? = Span.cover (c.tokens.map Token.span) := by
  cases c <;> rfl

/-- How the spans of a node and of its children stand to each other, in the document `source`. -/
structure Node.SpansNest (source : Int) (n : Node) : Prop where
  collected : n.span? = Span.cover (n.callbacks.filterMap Callback.span?)
  runs : n.outline.tokens ≠ [] →
    ∃ first last, n.outline.tokens.head? = some first ∧ n.outline.tokens.getLast? = some last ∧
      n.span? = some ⟨source, first.span.start, last.span.stop⟩
  joins : n.span? = Span.cover (n.children.filterMap Child.span?)
  apart : (n.children.filterMap Child.span?).Pairwise fun a b =>
    a.start < b.start ∧ a.stop ≤ b.start

/-- The span of a node is the join of those of its children, in any tree. -/
theorem Node.span?_children (n : Node) :
    n.span? = Span.cover (n.children.filterMap Child.span?) := by
  rw [Node.span?, n.tokens_children, List.map_flatMap, Span.cover_flatMap]
  simp only [← Child.span?_eq]

/-- A child in line spans from one of its tokens to one of its tokens. -/
theorem Child.span?_inLine {source : Int} {c : Child} {s : Span} (h : Token.InLine source c.tokens)
    (hs : c.span? = some s) :
    ∃ first ∈ c.tokens, ∃ last ∈ c.tokens, s = ⟨source, first.span.start, last.span.stop⟩ := by
  rw [Child.span?_eq] at hs
  have held : c.tokens ≠ [] := fun none => by simp [none, Span.cover] at hs
  obtain ⟨first, last, head, ends, cover⟩ := h.cover held
  exact ⟨first, List.mem_of_head? head, last, List.mem_of_getLast? ends,
    (Option.some.inj (cover.symm.trans hs)).symm⟩

theorem Node.spansNest {source : Int} {n : Node} (h : Token.InLine source n.outline.tokens) :
    n.SpansNest source where
  collected := by rw [n.spans_callbacks, Node.span?]
  runs := h.cover
  joins := n.span?_children
  apart := by
    rw [n.tokens_children] at h
    have own {c : Child} (hc : c ∈ n.children) : Token.InLine source c.tokens :=
      h.sublist (List.flatMap_def ▸ List.sublist_flatten_of_mem (List.mem_map_of_mem hc))
    refine List.pairwise_filterMap.2 ((List.pairwise_flatMap.1 h.ordered).2.imp_of_mem ?_)
    intro c d hc hd before s hs s' hs'
    obtain ⟨first, first_mem, last, last_mem, rfl⟩ := Child.span?_inLine (own hc) hs
    obtain ⟨first', first_mem', last', -, rfl⟩ := Child.span?_inLine (own hd) hs'
    exact ⟨(before first first_mem first' first_mem').1, (before last last_mem first' first_mem').2⟩

/-! ## Documents of a text -/

theorem parse_leaf_mem {source : Int} {text : Text} {t : Token}
    (ht : t ∈ (parse source text).tree.outline.tokens) : t ∈ lex source text := by
  obtain ⟨places, blocks, share⟩ := parse_partition source text
  rw [share.leaves_eq] at ht
  obtain ⟨i, -, here⟩ := List.mem_filterMap.1 ht
  rw [List.getElem?_toArray] at here
  exact List.mem_of_getElem? here

theorem parse_inLine (source : Int) (text : Text) :
    Token.InLine source (parse source text).tree.outline.tokens :=
  ⟨parse_leaves_before source text, fun t ht => (lex_inLine source text).proper t (parse_leaf_mem ht)⟩

/-- The first token of a text is at its start if any is. -/
theorem lex_first_start {source : Int} {text : Text} {first t : Token}
    (head : (lex source text).head? = some first) (ht : t ∈ lex source text)
    (start : t.span.start = 0) : first.span.start = 0 := by
  have ordered := lex_pairwise source text
  have least : 0 ≤ first.span.start :=
    Lexer.lexFrom_start_le source 0 text first (List.mem_of_head? head)
  obtain ⟨rest, eq⟩ := List.head?_eq_some_iff.1 head
  rw [eq] at ht ordered
  rcases List.mem_cons.1 ht with rfl | ht
  · exact start
  · have before := (List.rel_of_pairwise_cons ordered ht).start_lt
    omega

/-- The last token of a text is at its end if any is. -/
theorem lex_last_stop {source : Int} {text : Text} {last t : Token}
    (ends : (lex source text).getLast? = some last) (ht : t ∈ lex source text)
    (stop : t.span.stop = text.length) : last.span.stop = text.length := by
  obtain ⟨i, j, stands⟩ := (Lexer.lexFrom_tiles source 0 text).place [] rfl not_false last
    (List.mem_of_getLast? ends)
  obtain ⟨rest, eq⟩ := List.getLast?_eq_some_iff.1 ends
  have ordered := lex_pairwise source text
  rw [eq] at ht ordered
  rcases List.mem_append.1 ht with ht | ht
  · have before := ((List.pairwise_append.1 ordered).2.2 t ht last (List.mem_singleton_self last)).2
    have inside : j ≤ text.length := stands.inside
    have lt := stands.lt
    rw [stands.span] at before
    simp only at before
    omega
  · rw [← List.mem_singleton.1 ht, stop]

/-- In the document of any text spans nest. Without syntax errors the document spans all of a text
that starts and ends with a token. -/
theorem parse_spans (source : Int) (text : Text) :
    let document := (parse source text).tree
    (∀ n ∈ document.outline.nodes, n.SpansNest source) ∧
      ((parse source text).diagnostics = [] → (∃ t ∈ lex source text, t.span.start = 0) →
        (∃ t ∈ lex source text, t.span.stop = text.length) →
        (Node.document document).span? = some ⟨source, 0, text.length⟩) := by
  intro document
  have line := parse_inLine source text
  constructor
  · intro n hn
    exact Node.spansNest (line.sublist (document.node_tokens_sublist n hn))
  · rintro clean ⟨t, ht, start⟩ ⟨u, hu, stop⟩
    obtain ⟨all, -⟩ := parse_leaves clean
    have held : document.outline.tokens ≠ [] := all ▸ List.ne_nil_of_mem ht
    obtain ⟨first, last, head, ends, span⟩ := (Node.spansNest (n := .document document) line).runs held
    have head' : (lex source text).head? = some first := all ▸ head
    have ends' : (lex source text).getLast? = some last := all ▸ ends
    rw [span, lex_first_start head' ht start, lex_last_stop ends' hu stop]

/-- A text that starts and ends with a token. -/
def snugText : Text := "\x7b a(x: 1) # \x7d\n \x7d"

theorem snugText_spans :
    (parse 1 snugText).diagnostics.isEmpty = true ∧
      (lex 1 snugText).map Token.span = [⟨1, 0, 1⟩, ⟨1, 2, 3⟩, ⟨1, 3, 4⟩, ⟨1, 4, 5⟩, ⟨1, 5, 6⟩,
        ⟨1, 7, 8⟩, ⟨1, 8, 9⟩, ⟨1, 15, 16⟩] ∧
      (Node.document (parse 1 snugText).tree).SpansNest 1 ∧
      (Node.document (parse 1 snugText).tree).span? = some ⟨1, 0, 16⟩ := by
  have clean : (parse 1 snugText).diagnostics.isEmpty = true := by decide +kernel
  obtain ⟨nest, whole⟩ := parse_spans 1 snugText
  refine ⟨clean, by decide +kernel, nest _ ?_, ?_⟩
  · rw [Document.outline, Outline.nodes]
    exact List.mem_cons_self
  · exact whole (List.isEmpty_iff.1 clean) (by decide +kernel) (by decide +kernel)

end GraphQL
