import GraphQL.Proofs.Production.Apart
import GraphQL.Proofs.Production.Document
import GraphQL.Proofs.Relocation.Report
import GraphQL.Proofs.Token.Joined

/-! # Errors stay where they are

A text without syntax errors is read the same in front of any other text, well formed or not, and
makes no difference to how that is read: `parse_joined`. The other text only has to begin a
definition, and not with a brace, which the last definition of the first text might take.

At the end of the first text all pending options see the tokens of the second instead of the end of
input. They stop there, since what begins a definition is waited for; from there on the list of
definitions goes on as it does in the second text alone, elsewhere. -/

namespace GraphQL

set_option autoImplicit false

open Outline
open Recovery (Cursor Parser Reading Recognizer Run)

/-- Tokens in front, and every place so many units further on. -/
def Relocation.shift (front : Array Token) (n : Nat) : Relocation where
  front := front
  place := Span.shift n
  place_between _ _ := rfl
  place_atStop _ := rfl
  place_join a b := by
    simp only [Span.join, Span.shift, Span.mk.injEq, true_and]
    omega

theorem Span.shift_start_le (n : Nat) (a b : Span) :
    (a.shift n).start ≤ (b.shift n).start ↔ a.start ≤ b.start := Int.add_le_add_iff_right _

/-- Behind the tokens of the first of two lists stands the second, elsewhere. -/
theorem Relocation.cursor_shift (front tokens : List Token) (n : Nat) :
    (Relocation.shift front.toArray n).cursor (Cursor.start tokens.toArray) =
      (Cursor.start (front ++ tokens.map (Token.mapSpans (Span.shift n))).toArray).past front := by
  have tokens : front.toArray ++ tokens.toArray.map (Relocation.shift front.toArray n).token =
      (front ++ tokens.map (Token.mapSpans (Span.shift n))).toArray := by
    rw [List.map_toArray, List.append_toArray]
    rfl
  rw [Relocation.cursor, Cursor.past]
  exact congr (congrArg Cursor.mk tokens) (Nat.add_comm _ _)

namespace Production

/-- The definitions that are read from a place to the end of the buffer. -/
def definitionsFrom (c : Cursor Token) : Reading (List Definition) :=
  Parser.itemsFrom definition (Recognizer.endOfInput.or definition.recognize)
    Recognizer.endOfInput c

theorem definitionsFrom_cursor (m : Relocation) (c : Cursor Token) :
    definitionsFrom (m.cursor c) =
      m.reading (List.map (Definition.mapSpans m.place)) (definitionsFrom c) :=
  definition_equivariant.itemsFrom_moved (m.same_endOfInput.or definition_equivariant.inside)
    m.same_endOfInput

/-- No definition takes what begins another one, but for a brace. -/
theorem avoids_of_recognized {c : Cursor Token} (h : definition.recognize c = true)
    (braceless : c.peek.any (·.isPunctuator "\x7b") = false) :
    Avoids (definitionStops true) c.ahead := by
  have begins : Begins definitionLeads c.ahead := begins_of_not_avoids fun none => by
    rw [definition_guarded.recognize c none] at h
    cases h
  have closed : Avoids (definitionStops false) c.ahead := begins.avoids (by decide)
  have brace : Avoids [.mark "\x7b"] c.ahead := by
    intro t ht l hl
    obtain rfl := List.mem_singleton.1 hl
    rw [c.peek_eq_head?, Option.mem_def.1 ht] at braceless
    exact braceless
  exact avoids_append.2 ⟨closed.sub (by simp [definitionStops]), brace⟩

/-- A well-formed document is read in front of anything that begins another definition. -/
theorem definitionsFrom_behind {document : Document} {c : Cursor Token} {rest : List Token}
    (wf : document.isWellFormed = true) (hc : c.ahead = document.outline.tokens ++ rest)
    (begins : definition.recognize (c.past document.outline.tokens) = true)
    (braceless : (c.past document.outline.tokens).peek.any (·.isPunctuator "\x7b") = false) :
    definitionsFrom c =
      (definitionsFrom (c.past document.outline.tokens)).behind document.definitions := by
  obtain ⟨each, inside, apart⟩ := definitions_of_isWellFormed wf
  have leaves : document.outline.tokens =
      document.definitions.flatMap fun d => (d.outline .definition).tokens := by
    rw [Document.outline, tokens_node, tokensOf_map]
  have stops := avoids_of_recognized begins braceless
  rw [Cursor.ahead_past hc] at stops
  rw [leaves] at hc begins ⊢
  exact Parser.itemsFrom_continues (fun d hd => definition_reads (each d hd) (inside d hd)) hc
    (definitions_fit_before each inside apart stops) (Parser.or_right begins)

end Production

open Production

/-- What a text is read as, in terms of its definitions. -/
theorem parse_eq (source : Int) (text : Text) :
    let read := definitionsFrom (Cursor.start (lex source text).toArray)
    parse source text = ⟨⟨read.value⟩, (lex source text).toArray,
      Cursor.runs ⟨(lex source text).toArray, read.position⟩ read.skipped⟩ := rfl

theorem Document.gaps_append (ds ds' : List Definition) :
    (Document.mk (ds ++ ds')).outline.gaps =
      (Document.mk ds).outline.gaps ++ (Document.mk ds').outline.gaps := by
  simp only [Document.outline, gaps, List.map_append, gapsOf_append]

/-- Two texts with a line end between them, the first without syntax errors: its definitions are
read, and then the second text elsewhere. -/
theorem definitionsFrom_joined {source : Int} {a b : Text}
    (clean : (parse source a).diagnostics = [])
    (begins : definition.recognize (Cursor.start (lex source b).toArray) = true)
    (braceless : (Cursor.start (lex source b).toArray).peek.any (·.isPunctuator "\x7b") = false) :
    let m := Relocation.shift (lex source a).toArray (a.length + 1)
    let c := m.cursor (Cursor.start (lex source b).toArray)
    (lex source (a ++ "\n" ++ b)).toArray = c.tokens ∧
      definitionsFrom (Cursor.start (lex source (a ++ "\n" ++ b)).toArray) =
        (definitionsFrom c).behind (parse source a).tree.definitions := by
  intro m c
  obtain ⟨leaves, legal⟩ := parse_leaves clean
  have tokens := lex_line source a b legal
  have place : c = (Cursor.start (lex source (a ++ "\n" ++ b)).toArray).past (lex source a) := by
    rw [tokens]
    exact Relocation.cursor_shift (lex source a) (lex source b) (a.length + 1)
  refine ⟨congrArg Cursor.tokens place.symm, ?_⟩
  have moved : definition.recognize c = true := (definition_equivariant.recognize _).trans begins
  have next : c.peek.any (·.isPunctuator "\x7b") = false := by
    rw [Relocation.peek_cursor, Option.any_map]
    exact braceless
  rw [place, ← leaves] at moved next ⊢
  have ahead : (Cursor.start (lex source (a ++ "\n" ++ b)).toArray).ahead =
      (parse source a).tree.outline.tokens ++
        (lex source b).map (Token.mapSpans (Span.shift (a.length + 1))) := by
    rw [leaves]
    exact tokens
  exact definitionsFrom_behind (parse_wellFormed clean) ahead moved next

/-- Errors stay in the text they are in. Where a text without syntax errors stands in front of
another one, its definitions come first; the definitions, the unrecognized runs and the diagnostics
of the other text follow, further on by the length of the first text and the line end. -/
theorem parse_joined {source : Int} {a b : Text} (clean : (parse source a).diagnostics = [])
    (begins : definition.recognize (Cursor.start (lex source b).toArray) = true)
    (braceless : (Cursor.start (lex source b).toArray).peek.any (·.isPunctuator "\x7b") = false) :
    let shift := Span.shift (a.length + 1)
    let joined := parse source (a ++ "\n" ++ b)
    joined.tree.definitions = (parse source a).tree.definitions ++
        (parse source b).tree.definitions.map (Definition.mapSpans shift) ∧
      joined.unrecognized = (parse source b).unrecognized.map (Run.mapSpans shift) ∧
      joined.diagnostics = (parse source b).diagnostics.map (Diagnostic.mapSpans shift) := by
  intro shift joined
  obtain ⟨tokens, read⟩ := definitionsFrom_joined clean begins braceless
  rw [definitionsFrom_cursor] at read
  have definitions : joined.tree.definitions = (parse source a).tree.definitions ++
      (parse source b).tree.definitions.map (Definition.mapSpans shift) :=
    congrArg Reading.value read
  have unrecognized : joined.unrecognized =
      (parse source b).unrecognized.map (Run.mapSpans shift) := by
    simp only [joined, parse_eq, read]
    rw [tokens]
    exact (Relocation.shift (lex source a).toArray (a.length + 1)).runs_cursor
      ⟨_, (definitionsFrom (Cursor.start (lex source b).toArray)).position⟩
      (definitionsFrom (Cursor.start (lex source b).toArray)).skipped
  refine ⟨definitions, unrecognized, ?_⟩
  -- the first text has no gaps, and those of the second are elsewhere
  have complete : (parse source a).tree.outline.gaps = [] := ((diagnostics_eq_nil _).1 clean).1
  have gaps : joined.tree.outline.gaps =
      (parse source b).tree.outline.gaps.map (mapGap shift) := by
    have whole := congrArg (fun ds => (Document.mk ds).outline.gaps) definitions
    have moved := Document.outline_mapSpans shift (parse source b).tree
    rw [Document.gaps_append, complete, List.nil_append] at whole
    rw [← gaps_mapSpans, ← moved]
    exact whole
  rw [Parsed.diagnostics, unrecognized]
  exact syntaxErrors_mapSpans (Span.shift_start_le _) gaps _

/-- A type without a body, and a comment that the line end is the end of. -/
def openText : Text := "type T # open"

/-- A type with a description that lacks parts, and with a token that is out of place. -/
def brokenText : Text := "\"d\" type U ) \x7b f"

set_option maxRecDepth 100000 in
theorem brokenText_isolated :
    (parse 1 openText).diagnostics = [] ∧
      definition.recognize (Cursor.start (lex 1 brokenText).toArray) = true ∧
      (Cursor.start (lex 1 brokenText).toArray).peek.any (·.isPunctuator "\x7b") = false ∧
      (parse 1 brokenText).unrecognized.length = 1 ∧
      (parse 1 (openText ++ "\n" ++ brokenText)).diagnostics =
        (parse 1 brokenText).diagnostics.map (Diagnostic.mapSpans (Span.shift 14)) := by
  have tree : (parse 1 openText).tree.definitions.all Definition.isWellFormed = true ∧
      (parse 1 openText).unrecognized.length = 0 := by decide +kernel
  have clean : (parse 1 openText).diagnostics = [] :=
    (diagnostics_eq_nil _).2
      ⟨(parse_gaps_eq_nil 1 openText).2 tree.1, List.length_eq_zero_iff.1 tree.2⟩
  have start : definition.recognize (Cursor.start (lex 1 brokenText).toArray) = true ∧
      (Cursor.start (lex 1 brokenText).toArray).peek.any (·.isPunctuator "\x7b") = false ∧
      (parse 1 brokenText).unrecognized.length = 1 := by decide +kernel
  exact ⟨clean, start.1, start.2.1, start.2.2, (parse_joined clean start.1 start.2.1).2.2⟩

end GraphQL
