import Mathlib.Data.List.Nodup
import GraphQL.Command.Format
import GraphQL.Proofs.Document.Leading
import GraphQL.Proofs.Layout.Relocated
import GraphQL.Proofs.Layout.Document
import GraphQL.Proofs.Production.Apart
import GraphQL.Proofs.Production.Document
import GraphQL.Proofs.Token.Order

/-! # Formatting keeps the program

The layout of a document without syntax errors spells its tokens, all but the leading separators,
so it is read back as the same document at other places. Formatting it again changes nothing. -/

namespace GraphQL

set_option autoImplicit false

open Lexer Outline
open Recovery (Parser)

/-! ## What is read from a text -/

theorem parse_legible {source : Int} {text : Text} (h : (parse source text).diagnostics = []) :
    ∀ t ∈ lex source text, t.Legible :=
  fun t ht => lex_legible source text t ht ((parse_leaves h).2 t ht)

open Production in
/-- A text whose tokens are those of a well-formed document is read as that document. -/
theorem parse_of_tokens {document : Document} (h : document.isWellFormed = true) {source : Int}
    {text : Text} (same : lex source text = document.outline.tokens) :
    (parse source text).tree = document ∧ (parse source text).unrecognized = [] := by
  obtain ⟨wf, inside, apart⟩ := definitions_of_isWellFormed h
  have items := Parser.many0_reads fun d hd => definition_reads (wf d hd) (inside d hd)
  have whole := (items.map Document.mk).parseAll ⟨definitions_fit wf inside apart,
    definition_guarded.led.declines [] (avoids_nil _)⟩
  rw [← tokensOf_map, ← tokens_node .plain (.document document), ← Document.outline, ← same] at whole
  have read : Production.document.parseAll (lex source text).toArray = some (document, []) := whole
  rw [parse, read]
  exact ⟨rfl, rfl⟩

/-- Nothing is missing in a tree with well-formed definitions. -/
theorem parse_clean {document : Document} (h : document.isWellFormed = true) {source : Int}
    {text : Text} (same : lex source text = document.outline.tokens) :
    (parse source text).tree = document ∧ (parse source text).diagnostics = [] := by
  obtain ⟨tree, unrecognized⟩ := parse_of_tokens h same
  refine ⟨tree, (diagnostics_eq_nil _).2 ⟨?_, unrecognized⟩⟩
  rw [parse_gaps_eq_nil, tree]
  exact (Bool.and_eq_true_iff.1 h).1

/-! ## Tokens at other places -/

/-- Lists with the same tokens differ by where these stand. -/
theorem exists_relocation {ss ts : List Token} (same : ss.map Token.lexeme = ts.map Token.lexeme)
    (once : (ss.map Token.span).Nodup) : ∃ f, ss.map (Token.mapSpans f) = ts := by
  induction ss generalizing ts with
  | nil => exact ⟨id, by simpa [eq_comm] using same⟩
  | cons s ss ih =>
    obtain ⟨t, ts, rfl⟩ : ∃ t rest, ts = t :: rest := by
      cases ts with
      | nil => cases same
      | cons t ts => exact ⟨t, ts, rfl⟩
    rw [List.map_cons, List.map_cons, List.cons.injEq] at same
    rw [List.map_cons, List.nodup_cons] at once
    obtain ⟨f, rest⟩ := ih same.2 once.2
    refine ⟨fun span => if span = s.span then t.span else f span, ?_⟩
    have head : s.mapSpans (fun span => if span = s.span then t.span else f span) = t := by
      obtain ⟨kind, text⟩ := Prod.mk.injEq .. ▸ same.1
      simp [Token.mapSpans, kind, text]
    have tail : ∀ r ∈ ss, r.mapSpans (fun span => if span = s.span then t.span else f span) =
        r.mapSpans f := by
      intro r hr
      have other : r.span ≠ s.span := fun eq => once.1 (eq ▸ List.mem_map_of_mem hr)
      simp [Token.mapSpans, other]
    rw [List.map_cons, head, List.map_congr_left tail, rest]

/-! ## Formatting -/

theorem formatSource_ok {text layout : Text} (h : formatSource text = .ok layout) :
    (parse 1 text).diagnostics = [] ∧ layout = (parse 1 text).tree.layout := by
  simp only [formatSource] at h
  split at h
  next none => exact ⟨List.isEmpty_iff.1 none, by cases h; rfl⟩
  next => cases h

/-- What is read from the layout of a text. -/
theorem layout_lexemes {source : Int} {text : Text} (h : (parse source text).diagnostics = []) :
    lexemes (parse source text).tree.layout =
      (parse source text).tree.unled.outline.tokens.map Token.lexeme := by
  have interleaved := (parse source text).tree.unled_interleaved
  rw [(parse_leaves h).1] at interleaved
  have legible : ∀ t ∈ (parse source text).tree.unled.outline.tokens, t.Legible := fun t ht =>
    parse_legible h t (interleaved.kept_sublist.subset ht)
  have read := Document.spells (parse_wellFormed h) legible [] stops_nil
  rw [List.append_nil, lexemes_nil, List.append_nil] at read
  exact read

theorem lex_spans_nodup (source : Int) (text : Text) :
    ((lex source text).map Token.span).Nodup := by
  refine List.pairwise_map.2 ((lex_pairwise source text).imp fun before same => ?_)
  have := before.start_lt
  rw [same] at this
  omega

/-- The layout of a text is read as its document without leading separators, at other places. -/
theorem layout_parses {source : Int} {text : Text} (h : (parse source text).diagnostics = [])
    (source' : Int) :
    ∃ f, (parse source' (parse source text).tree.layout).tree =
        (parse source text).tree.unled.mapSpans f ∧
      (parse source' (parse source text).tree.layout).diagnostics = [] := by
  have wf := Document.unled_wellFormed (parse_wellFormed h)
  have interleaved := (parse source text).tree.unled_interleaved
  rw [(parse_leaves h).1] at interleaved
  have same : (parse source text).tree.unled.outline.tokens.map Token.lexeme =
      (lex source' (parse source text).tree.layout).map Token.lexeme := by
    rw [lex_lexemes, layout_lexemes h]
  have once : ((parse source text).tree.unled.outline.tokens.map Token.span).Nodup :=
    (interleaved.kept_sublist.map Token.span).nodup (lex_spans_nodup source text)
  obtain ⟨f, moved⟩ := exists_relocation same once
  refine ⟨f, parse_clean ?_ ?_⟩
  · rw [Document.isWellFormed_mapSpans, wf]
  · rw [Document.outline_mapSpans, tokens_mapSpans, moved]

/-! ## What formatting keeps -/

/-- A leading ampersand, two leading bars, a comment and little room between tokens. -/
def untidyText : Text :=
  "type T implements & A & B \x7b f(a: Int=-1,b:[U!]): X @d \x7d # note\nunion U=|A|B " ++
    "directive@d on|FIELD|QUERY \x7ba(x:\"y\") ...F\x7d"

def tidyText : Text :=
  "type T implements A & B \x7b\n  f(a: Int = -1, b: [U!]): X @d\n\x7d\n\nunion U = A | B\n\n" ++
    "directive @d on FIELD | QUERY\n\n\x7b\n  a(x: \"y\")\n  ...F\n\x7d\n"

set_option maxRecDepth 100000 in
theorem formatSource_untidyText : formatSource untidyText = .ok tidyText := by
  have both : (parse 1 untidyText).diagnostics.isEmpty = true ∧
      (parse 1 untidyText).tree.layout = tidyText := by decide +kernel
  simp only [formatSource, both.1, both.2, if_true]

/-- Formatting drops the leading separators of a text and keeps every other token, in order. -/
theorem formatSource_keeps_tokens {text layout : Text} (h : formatSource text = .ok layout) :
    let leading := (parse 1 text).tree.leadingSeparators
    leading.Sublist (lex 1 text) ∧
      (∀ t ∈ leading, t.isSeparator = true) ∧
      (lex 1 layout).map Token.lexeme =
        ((lex 1 text).filter fun t => !leading.contains t).map Token.lexeme := by
  obtain ⟨clean, rfl⟩ := formatSource_ok h
  have interleaved := (parse 1 text).tree.unled_interleaved
  rw [(parse_leaves clean).1] at interleaved
  have once : (lex 1 text).Nodup := List.Nodup.of_map Token.span (lex_spans_nodup 1 text)
  refine ⟨interleaved.dropped_sublist, ?_, ?_⟩
  · exact Document.leading_separates (parse_wellFormed clean)
  · rw [lex_lexemes, layout_lexemes clean, interleaved.filter_eq once]

set_option maxRecDepth 100000 in
theorem tidyText_tokens :
    (parse 1 untidyText).tree.leadingSeparators.length = 3 ∧
      formatSource untidyText = .ok tidyText ∧
      (lex 1 tidyText).map Token.lexeme = ((lex 1 untidyText).filter fun t =>
        !(parse 1 untidyText).tree.leadingSeparators.contains t).map Token.lexeme := by
  have three : (parse 1 untidyText).tree.leadingSeparators.length = 3 := by decide +kernel
  exact ⟨three, formatSource_untidyText, (formatSource_keeps_tokens formatSource_untidyText).2.2⟩

/-- The layout of a text is read without errors as the same document, up to spans and leading
separators, and is its own layout. -/
theorem formatSource_round_trip {text layout : Text} (h : formatSource text = .ok layout) :
    (parse 1 layout).diagnostics = [] ∧
      (parse 1 layout).tree.placeless = (parse 1 text).tree.unled.placeless ∧
      formatSource layout = .ok layout := by
  obtain ⟨clean, rfl⟩ := formatSource_ok h
  obtain ⟨f, tree, again⟩ := layout_parses clean 1
  refine ⟨again, ?_, ?_⟩
  · rw [tree, Document.placeless, Document.placeless, Document.mapSpans_mapSpans]
  · rw [formatSource, again, tree, Document.layout_mapSpans, Document.layout_unled]
    rfl

theorem tidyText_stays :
    formatSource untidyText = .ok tidyText ∧ (parse 1 tidyText).diagnostics = [] ∧
      (parse 1 tidyText).tree.placeless = (parse 1 untidyText).tree.unled.placeless ∧
      formatSource tidyText = .ok tidyText :=
  ⟨formatSource_untidyText, formatSource_round_trip formatSource_untidyText⟩

end GraphQL
