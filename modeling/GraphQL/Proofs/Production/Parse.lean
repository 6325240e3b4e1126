import GraphQL.Diagnostic.Syntax
import GraphQL.Proofs.Production.Conservation
import GraphQL.Proofs.Recovery.Partition

/-! # What a parse does with its tokens

Reading a document never fails. The leaves of its tree and its runs of unrecognized tokens share out
the tokens of the text: none is lost, doubled or moved, whatever the text is. A document without
syntax errors has all of them as leaves. -/

namespace GraphQL

set_option autoImplicit false

open Recovery (Accounts Cursor Mark Parser Partition Recognizer)

/-- What the parser of documents reads in a buffer; a list of items always succeeds. -/
theorem document_reads (tokens : Array Token) :
    ∃ r, Production.document.parse (Cursor.start tokens) Recognizer.endOfInput = .ok r ∧
      Production.document.parseAll tokens =
        some (r.value, Cursor.runs ⟨tokens, r.position⟩ r.skipped) := by
  cases h : Production.document.parse (Cursor.start tokens) Recognizer.endOfInput with
  | error e => simp [Production.document, Parser.map, Parser.many0, Except.map] at h
  | ok r => exact ⟨r, rfl, by rw [Parser.parseAll, h]⟩

/-- A parse accounts for the tokens up to where it stops. -/
theorem parse_accounts (source : Int) (text : Text) :
    ∃ stop passed skipped, passed.Perm skipped ∧
      Accounts Token.Legal (parse source text).tokens 0 stop passed
        (parse source text).tree.outline.marks ∧
      (parse source text).unrecognized = Cursor.runs ⟨(parse source text).tokens, stop⟩ skipped := by
  obtain ⟨r, hr, hall⟩ := document_reads (lex source text).toArray
  obtain ⟨passed, same, h⟩ := Production.document_conserves _ _ _ hr
  refine ⟨r.position, passed, r.skipped, same, ?_⟩
  simp only [parse, hall]
  exact ⟨h, trivial⟩

theorem parse_tokens (source : Int) (text : Text) :
    (parse source text).tokens = (lex source text).toArray := by
  obtain ⟨r, -, hall⟩ := document_reads (lex source text).toArray
  simp only [parse, hall]

/-- The leaves of the tree and the runs of a text share out its tokens. -/
theorem parse_partition (source : Int) (text : Text) :
    ∃ places blocks, Partition (lex source text).toArray (parse source text).tree.outline.tokens
      (parse source text).unrecognized places blocks := by
  obtain ⟨stop, passed, skipped, same, accounts, runs⟩ := parse_accounts source text
  obtain ⟨places, blocks, share⟩ := accounts.partition same
  rw [← runs, ← Outline.tokens_eq, parse_tokens] at share
  exact ⟨places, blocks, share⟩

/-! ## Documents without errors -/

theorem diagnostics_eq_nil (parsed : Parsed Document) :
    parsed.diagnostics = [] ↔ parsed.tree.outline.gaps = [] ∧ parsed.unrecognized = [] := by
  rw [Parsed.diagnostics, syntaxErrors, ← List.length_eq_zero_iff, List.length_mergeSort]
  simp

theorem filterMap_range {α : Type} (l : List α) : (List.range l.length).filterMap (l[·]?) = l := by
  induction l with
  | nil => rfl
  | cons a l ih =>
    rw [List.length_cons, List.range_succ_eq_map, List.filterMap_cons]
    simp [List.filterMap_map, ih]

/-- With nothing unrecognized the leaves are all tokens, and conversely. -/
theorem Recovery.Partition.unrecognized_eq_nil {tokens : Array Token} {leaves : List Token}
    {runs : List (Recovery.Run Token)} {places : List Nat} {blocks : List (List Nat)}
    (h : Partition tokens leaves runs places blocks) : runs = [] ↔ leaves = tokens.toList := by
  have inside : ∀ i ∈ places, i < tokens.size := fun i hi => by
    simpa using h.once.subset (List.mem_append_left _ hi)
  constructor
  · intro hr
    have hb : blocks = [] := by simpa [h.runs_eq] using hr
    have hp : places.Perm (List.range tokens.size) := by simpa [hb] using h.once
    have asymm : ∀ i j : Nat, i ∈ places → j ∈ List.range tokens.size → i < j → j < i → i = j :=
      fun i j _ _ h1 h2 => absurd h1 (Nat.lt_asymm h2)
    have : places = List.range tokens.size :=
      hp.eq_of_pairwise asymm h.places_increasing List.pairwise_lt_range
    rw [h.leaves_eq, this, ← Array.length_toList]
    simpa using filterMap_range tokens.toList
  · intro hl
    have hlen : leaves.length = places.length := by
      rw [h.leaves_eq, List.length_filterMap_eq_countP, List.countP_eq_length]
      intro i hi
      simp [inside i hi]
    have : blocks.flatten.length = 0 := by
      have := h.once.length_eq
      have : leaves.length = tokens.size := by rw [hl, Array.length_toList]
      simp only [List.length_append, List.length_range] at *
      omega
    have hb : blocks = [] := by
      cases blocks with
      | nil => rfl
      | cons b rest =>
        have hne := h.blocks_maximal.ne_nil b List.mem_cons_self
        have : b.length = 0 := by
          simp only [List.flatten_cons, List.length_append] at this
          omega
        exact absurd (List.length_eq_zero_iff.1 this) hne
    rw [h.runs_eq, hb, List.map_nil]

/-- Without syntax errors the tree holds all tokens of the text, and these are of the language. -/
theorem parse_leaves {source : Int} {text : Text} (h : (parse source text).diagnostics = []) :
    (parse source text).tree.outline.tokens = lex source text ∧
      ∀ t ∈ lex source text, t.Legal := by
  rw [diagnostics_eq_nil] at h
  obtain ⟨stop, passed, skipped, -, accounts, -⟩ := parse_accounts source text
  obtain ⟨places, blocks, share⟩ := parse_partition source text
  have all := share.unrecognized_eq_nil.1 h.2
  rw [List.toList_toArray] at all
  refine ⟨all, fun t ht => accounts.leaves_legal t ?_⟩
  rw [← Outline.tokens_eq, all]
  exact ht

/-! ## Conservation -/

/-- Each token of a text is a leaf of its tree, in order, or belongs to one run of unrecognized
tokens, and to nothing else. Errors of the lexer are never leaves. Exactly where there are no syntax
errors the leaves are all tokens and nothing is lacking. -/
theorem parse_shares_out_tokens (source : Int) (text : Text) :
    let parsed := parse source text
    let leaves := parsed.tree.outline.events.filterMap Event.token?
    (∃ places blocks,
      Partition (lex source text).toArray leaves parsed.unrecognized places blocks) ∧
    (∀ t ∈ leaves, t.kind ≠ .error) ∧
    (parsed.diagnostics = [] ↔ leaves = lex source text ∧ parsed.tree.outline.gaps = []) := by
  intro parsed leaves
  obtain ⟨stop, passed, skipped, same, h, hruns⟩ := parse_accounts source text
  have hleaves : leaves = parsed.tree.outline.marks.filterMap Mark.leaf? :=
    Outline.tokens_events _
  obtain ⟨places, blocks, share⟩ := h.partition same
  rw [← hruns, ← hleaves, parse_tokens] at share
  refine ⟨⟨places, blocks, share⟩, ?_, ?_⟩
  · rw [hleaves]
    exact h.leaves_legal
  · rw [diagnostics_eq_nil, share.unrecognized_eq_nil, List.toList_toArray]
    exact And.comm

end GraphQL
