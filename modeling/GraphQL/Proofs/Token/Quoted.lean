import GraphQL.Proofs.Token.Extent

/-! # Where ordinary strings end

A string that is no block string ends with its line, closed or not. There is one way across the end
of a line: a backslash takes the unit behind it with it, and that may be a line end.

* `escapedUnits` are the units that backslashes take with them,
* `string_lineEnds`: the line ends in such a string are those that a backslash takes,
* `string_oneLine` says when a string stays on its line, and `brokenString` is one that does not. -/

namespace GraphQL

set_option autoImplicit false

/-- The units behind backslashes, read from the left: a backslash that another one takes with it
takes none. -/
def escapedUnits : Text → List CodeUnit
  | [] => []
  | u :: rest =>
    if u == unit '\\' then
      match rest with
      | [] => []
      | v :: rest => v :: escapedUnits rest
    else escapedUnits rest

theorem escapedUnits_plain {u : CodeUnit} (h : u ≠ unit '\\') (rest : Text) :
    escapedUnits (u :: rest) = escapedUnits rest := by
  rw [escapedUnits.eq_def]
  exact if_neg fun same => h (beq_iff_eq.1 same)

theorem escapedUnits_backslash (v : CodeUnit) (rest : Text) :
    escapedUnits (unit '\\' :: v :: rest) = v :: escapedUnits rest := rfl

namespace Lexer

variable {a behind : Text} {kind : TokenKind}

/-- Up to the end of a string each line end stands behind a backslash that takes it. -/
theorem stringTail_lineEnds (t : Text) :
    (t.take (stringTail t).2).filter isLineEnd =
      (escapedUnits (t.take (stringTail t).2)).filter isLineEnd := by
  fun_induction stringTail t with
  | case1 => rfl
  | case2 u t line => rfl
  | case3 u line backslash =>
    obtain rfl := beq_iff_eq.1 backslash
    decide
  | case4 u line backslash v t ih =>
    obtain rfl := beq_iff_eq.1 backslash
    have taken : (unit '\\' :: v :: t).take (lengthen 2 (stringTail t)).2 =
        unit '\\' :: v :: t.take (stringTail t).2 := by
      rw [lengthen, Nat.add_comm, List.take_succ_cons, List.take_succ_cons]
    rw [taken, escapedUnits_backslash, List.filter_cons_of_neg line, List.filter_cons,
      List.filter_cons, ih]
  | case5 u t line backslash quote =>
    obtain rfl := beq_iff_eq.1 quote
    rfl
  | case6 u t line backslash quote ih =>
    have taken : (u :: t).take (lengthen 1 (stringTail t)).2 = u :: t.take (stringTail t).2 := by
      rw [lengthen, Nat.add_comm, List.take_succ_cons]
    rw [taken, escapedUnits_plain fun same => backslash (beq_iff_eq.2 same),
      List.filter_cons_of_neg line, ih]

/-- A lexeme that begins with one quote but not with three is the quote and what follows it. -/
theorem stringTail_of_quote (quote : headIs (· == unit '"') a = true)
    (single : fence.isPrefixOf a = false) (here : lexeme (a ++ behind) = (kind, a.length)) :
    ∃ body, a = unit '"' :: body ∧ stringTail (body ++ behind) = (kind, body.length) := by
  cases a with
  | nil => cases quote
  | cons u body =>
    obtain rfl : u = unit '"' := beq_iff_eq.1 quote
    refine ⟨body, rfl, ?_⟩
    rw [List.cons_append, lexeme_quote rfl] at here
    split at here
    next fenced =>
      -- a block string would be three units long or more, so that its fence would be in `a`
      have long : 3 ≤ (unit '"' :: body).length := by
        have := congrArg Prod.snd here
        simp only [lengthen, List.length_cons] at this ⊢
        omega
      have front : fence <+: unit '"' :: body :=
        List.prefix_of_prefix_length_le (List.isPrefixOf_iff_prefix.1 fenced)
          (List.prefix_append (unit '"' :: body) behind) long
      rw [List.isPrefixOf_iff_prefix.2 front] at single
      cases single
    next =>
      obtain ⟨m, tail, length⟩ := lengthen_eq here
      obtain rfl : m = body.length := by
        rw [List.length_cons] at length
        omega
      exact tail

end Lexer

open Lexer

variable {source : Int} {text : Text} {t : Token}

/-- The line ends in a string are those that a backslash takes with it. -/
theorem string_lineEnds (ht : t ∈ lex source text) (quote : headIs (· == unit '"') t.text = true)
    (single : fence.isPrefixOf t.text = false) :
    t.text.filter isLineEnd = (escapedUnits t.text).filter isLineEnd := by
  obtain ⟨front, behind, -, -, here, -⟩ := lexFrom_mem ht
  obtain ⟨body, split, tail⟩ := stringTail_of_quote quote single here
  have ends := stringTail_lineEnds (body ++ behind)
  rw [tail, List.take_left] at ends
  rw [split, escapedUnits_plain (by decide), ← ends]
  rfl

/-- A string that is no block string, closed or not, stays on its line if and only if no backslash
in it takes a line end with it. -/
theorem string_oneLine (ht : t ∈ lex source text) (quote : headIs (· == unit '"') t.text = true)
    (single : fence.isPrefixOf t.text = false) :
    (unit '\n' ∉ t.text ∧ unit '\r' ∉ t.text) ↔
      unit '\n' ∉ escapedUnits t.text ∧ unit '\r' ∉ escapedUnits t.text := by
  have ends := string_lineEnds ht quote single
  have both (u : CodeUnit) (line : isLineEnd u = true) : u ∈ t.text ↔ u ∈ escapedUnits t.text := by
    calc u ∈ t.text ↔ u ∈ t.text.filter isLineEnd := by rw [List.mem_filter, and_iff_left line]
      _ ↔ u ∈ (escapedUnits t.text).filter isLineEnd := by rw [ends]
      _ ↔ u ∈ escapedUnits t.text := by rw [List.mem_filter, and_iff_left line]
  rw [both (unit '\n') (by decide), both (unit '\r') (by decide)]

/-- A string with an escaped quote, and one that is not closed. -/
def quotedText : Text := "\"a\\\"b\" \"c\n"

theorem quotedText_oneLine :
    lex 1 quotedText = [⟨.string, "\"a\\\"b\"", ⟨1, 0, 6⟩⟩, ⟨.error, "\"c", ⟨1, 7, 9⟩⟩] ∧
      (unit '\n' ∉ ("\"a\\\"b\"" : Text) ∧ unit '\r' ∉ ("\"a\\\"b\"" : Text)) ∧
      unit '\n' ∉ ("\"c" : Text) ∧ unit '\r' ∉ ("\"c" : Text) := by
  have tokens : lex 1 quotedText =
      [⟨.string, "\"a\\\"b\"", ⟨1, 0, 6⟩⟩, ⟨.error, "\"c", ⟨1, 7, 9⟩⟩] := by decide +kernel
  refine ⟨tokens, ?_, ?_⟩
  · have first : (⟨.string, "\"a\\\"b\"", ⟨1, 0, 6⟩⟩ : Token) ∈ lex 1 quotedText := by
      rw [tokens]
      exact List.mem_cons_self
    exact (string_oneLine first (by decide) (by decide)).2 (by decide)
  · have second : (⟨.error, "\"c", ⟨1, 7, 9⟩⟩ : Token) ∈ lex 1 quotedText := by
      rw [tokens]
      exact List.mem_cons_of_mem _ List.mem_cons_self
    exact (string_oneLine second (by decide) (by decide)).2 (by decide)

/-- A string with a backslash at the end of the line. -/
def brokenString : Text := "\"\\\n\""

/-- The backslash takes the line end with it, and the string is closed on the next line. -/
theorem brokenString_twoLines :
    lex 1 brokenString = [⟨.string, brokenString, ⟨1, 0, 4⟩⟩] ∧
      headIs (· == unit '"') brokenString = true ∧ fence.isPrefixOf brokenString = false ∧
      unit '\n' ∈ brokenString := by
  decide +kernel

end GraphQL
