import GraphQL.Proofs.Token.Number
import GraphQL.Proofs.Token.Tiling

/-! # Tokens with other gaps between them

A token in front of a blank is read from its own text alone, and an `error` token is no exception
unless it is a string that was not closed. So it makes no difference to tokens which gaps are
between them.

* `number_append` and `lexeme_again` read a stretch of a text again in front of other text,
* a token that `StandsAlone` is found wherever its text stands in front of a gap,
* `lex_respaced` is about all tokens of a text. -/

namespace GraphQL

set_option autoImplicit false

namespace Lexer

variable {a behind rest t : Text} {u : CodeUnit} {p : CodeUnit → Bool}

/-- The text is over, or a blank stands at its head. -/
def AtGap (rest : Text) : Prop := ∀ u ∈ rest.head?, u ∈ blanks

theorem atGap_nil : AtGap [] := nofun

theorem AtGap.headIs (h : AtGap rest) (apart : blanks.all (fun v => !p v) = true) :
    headIs p rest = false := by
  cases rest with
  | nil => rfl
  | cons u rest => exact apart_of_all apart (h u rfl)

/-! ## Numbers -/

theorem headIs_append_apart (hr : headIs p rest = false) (a : Text) :
    headIs p (a ++ rest) = headIs p a := by
  cases a with
  | nil => exact hr
  | cons u a => rfl

theorem takeWhile_append_apart (hr : headIs p rest = false) (a : Text) :
    (a ++ rest).takeWhile p = a.takeWhile p := by
  induction a with
  | nil => exact takeWhile_append_stop (by simp) hr
  | cons u a ih => rw [List.cons_append, List.takeWhile_cons, List.takeWhile_cons, ih]

theorem naturalPart_append (hr : headIs isDigit rest = false) (a : Text) :
    naturalPart (a ++ rest) = naturalPart a := by
  have zero : headIs (· == unit '0') rest = false := by
    refine headIs_false (fun u hu => ?_) hr
    obtain rfl := beq_iff_eq.1 hu
    decide
  have behind : headIs isDigit ((a ++ rest).drop 1) = headIs isDigit (a.drop 1) ∨ a = [] := by
    cases a with
    | nil => exact .inr rfl
    | cons u a => exact .inl (headIs_append_apart hr a)
  unfold naturalPart digitsLength
  rw [headIs_append_apart zero, headIs_append_apart hr, takeWhile_append_apart hr]
  obtain behind | rfl := behind
  · rw [behind]
  · rfl

theorem integerPart_append (hr : headIs isDigit rest = false) (some : a ≠ []) :
    integerPart (a ++ rest) = integerPart a := by
  cases a with
  | nil => exact absurd rfl some
  | cons u a =>
    have sign : headIs (· == unit '-') (u :: a ++ rest) = headIs (· == unit '-') (u :: a) := rfl
    have behind : naturalPart ((u :: a ++ rest).drop 1) = naturalPart ((u :: a).drop 1) :=
      naturalPart_append hr a
    unfold integerPart
    rw [sign, behind, naturalPart_append hr]

theorem fractionPart_append (free : headIs gluesToNumber rest = false) (a : Text) :
    fractionPart (a ++ rest) = fractionPart a := by
  have digit := headIs_false (fun _ => gluesToNumber_of_digit) free
  have point := headIs_false (fun _ => gluesToNumber_of_point) free
  cases a with
  | nil => exact if_neg (Bool.eq_false_iff.1 point)
  | cons u a =>
    have first : headIs (· == unit '.') (u :: a ++ rest) = headIs (· == unit '.') (u :: a) := rfl
    have behind : (u :: a ++ rest).drop 1 = a ++ rest := rfl
    unfold fractionPart digitsLength
    rw [first, behind, headIs_append_apart digit, takeWhile_append_apart digit]
    rfl

theorem exponentPart_append (free : headIs gluesToNumber rest = false)
    (same : headIs isExponentMark a = true → markLength (a ++ rest) = markLength a) :
    exponentPart (a ++ rest) = exponentPart a := by
  have digit := headIs_false (fun _ => gluesToNumber_of_digit) free
  have first := headIs_append_apart (headIs_false (fun _ => gluesToNumber_of_mark) free) a
  by_cases mark : headIs isExponentMark a = true
  · have behind : (a ++ rest).drop (markLength a) = a.drop (markLength a) ++ rest :=
      List.drop_append_of_le_length (mark_covered mark).le
    rw [exponentPart_marked (first.trans mark), exponentPart_marked mark, same mark, behind,
      headIs_append_apart digit, digitsLength, takeWhile_append_apart digit]
    rfl
  · have none : exponentPart a = .ok 0 := if_neg mark
    rw [none]
    exact if_neg (first ▸ mark)

/-- A sign goes on with a mark that nothing else follows. -/
theorem markLength_eq (mark : headIs isExponentMark a = true)
    (short : headIs isSign rest = true → markLength (a ++ rest) ≤ a.length) :
    markLength (a ++ rest) = markLength a := by
  match a, mark with
  | u :: v :: a, _ => rfl
  | [u], _ =>
    cases sign : headIs isSign rest with
    | false => exact if_neg (Bool.eq_false_iff.1 sign)
    | true =>
      have two : markLength ([u] ++ rest) = 2 := if_pos sign
      have one := short sign
      rw [two] at one
      exact absurd one (Nat.not_succ_le_self 1)

theorem markLength_le_exponent (mark : headIs isExponentMark t = true) {n : Nat}
    (h : exponentPart t = .ok n ∨ exponentPart t = .error n) : markLength t ≤ n := by
  rw [exponentPart_marked mark] at h
  split at h
  · obtain h | h := h <;> cases h
    exact Nat.le_add_right _ _
  · obtain h | h := h <;> cases h
    exact Nat.le_refl _

/-- A number reaches beyond the mark of its exponent, whether it is well formed or not. -/
theorem markLength_le_number {i f : Nat} (hi : integerPart t = .ok i)
    (hf : fractionPart (t.drop i) = .ok f) (mark : headIs isExponentMark (t.drop (i + f)) = true) :
    i + f + markLength (t.drop (i + f)) ≤ (number t).2 := by
  unfold number wellFormedNumber
  rw [hi]
  dsimp only
  rw [hf]
  dsimp only
  cases he : exponentPart (t.drop (i + f)) with
  | error n =>
    have reach := markLength_le_exponent mark (.inr he)
    dsimp only
    omega
  | ok e =>
    have reach := markLength_le_exponent mark (.inl he)
    dsimp only
    split
    next found h =>
      split at h <;> cases h
      dsimp only
      omega
    next n h =>
      split at h <;> cases h
      dsimp only
      omega

theorem wellFormedNumber_append (some : a ≠ []) (free : headIs gluesToNumber rest = false)
    (short : headIs isSign rest = true → (number (a ++ rest)).2 ≤ a.length) :
    wellFormedNumber (a ++ rest) = wellFormedNumber a := by
  have digit := headIs_false (fun _ => gluesToNumber_of_digit) free
  have integer := integerPart_append digit some
  have cut {n : Nat} (h : n ≤ a.length) : (a ++ rest).drop n = a.drop n ++ rest :=
    List.drop_append_of_le_length h
  unfold wellFormedNumber
  rw [integer]
  cases hi : integerPart a with
  | error n => rfl
  | ok i =>
  have front := integerPart_scans a i (.inl hi)
  have fraction : fractionPart ((a ++ rest).drop i) = fractionPart (a.drop i) := by
    rw [cut front.le, fractionPart_append free]
  dsimp only
  rw [fraction]
  cases hf : fractionPart (a.drop i) with
  | error n => rfl
  | ok f =>
  have front := front.add (fractionPart_scans _ f (.inl hf))
  have exponent : exponentPart ((a ++ rest).drop (i + f)) = exponentPart (a.drop (i + f)) := by
    rw [cut front.le]
    refine exponentPart_append free fun mark => markLength_eq mark fun sign => ?_
    have marked : headIs isExponentMark ((a ++ rest).drop (i + f)) = true := by
      rw [cut front.le]
      exact headIs_append mark rest
    have reach := markLength_le_number (integer.trans hi) (fraction.trans hf) marked
    rw [cut front.le] at reach
    have inside := short sign
    rw [List.length_drop]
    omega
  dsimp only
  rw [exponent]
  cases he : exponentPart (a.drop (i + f)) with
  | error n => rfl
  | ok e =>
  have front := front.add (exponentPart_scans _ e (.inl he))
  dsimp only
  rw [cut front.le, headIs_append_apart free]

/-- A number is read from its own units alone. A sign behind it belongs to it where it is behind the
mark of its exponent. -/
theorem number_append (some : a ≠ []) (free : headIs gluesToNumber rest = false)
    (short : headIs isSign rest = true → (number (a ++ rest)).2 ≤ a.length) :
    number (a ++ rest) = number a := by
  have same := wellFormedNumber_append some free short
  unfold number
  rw [same]
  split
  · rfl
  next n h =>
    have inside : n ≤ a.length := (wellFormedNumber_covered.2 n h).le
    rw [List.drop_append_of_le_length inside, takeWhile_append_apart free]

/-! ## Unknown characters -/

theorem lexeme_unknown (dots : ¬ellipsis.isPrefixOf t = true)
    (other : headIs beginsToken t = false) : lexeme t = (.error, unknownLength t) := by
  have apart {q : CodeUnit → Bool} (sub : ∀ u, q u = true → beginsToken u = true) :
      ¬headIs q t = true := Bool.eq_false_iff.1 (headIs_false sub other)
  have mark := apart (q := punctuators.contains) fun u h => by
    simp only [beginsToken, h, Bool.true_or]
  have start := apart (q := isNameStart) fun u h => by
    simp only [beginsToken, h, Bool.true_or, Bool.or_true]
  have digit : ¬headIs (fun u => u == unit '-' || isDigit u) t = true :=
    apart (q := beginsNumber) fun u h => by simp only [beginsToken, h, Bool.true_or, Bool.or_true]
  have quote := apart (q := (· == unit '"')) fun u h => by
    simp only [beginsToken, h, Bool.or_true]
  rw [lexeme, if_neg dots, if_neg mark, if_neg start, if_neg digit,
    if_neg fun fenced => quote (headIs_quote_of_fence fenced), if_neg quote]

/-- An `error` that is neither a number nor a string is an unknown character. -/
theorem unknown_of_error {n : Nat} (h : lexeme t = (.error, n))
    (number : ¬headIs beginsNumber t = true) (quote : ¬headIs (· == unit '"') t = true) :
    ¬ellipsis.isPrefixOf t = true ∧ headIs beginsToken t = false ∧ unknownLength t = n := by
  have found := lexemeAt_lexeme t
  rw [h] at found
  generalize same : (TokenKind.error, n) = lexeme at found
  cases found with
  | dots => cases same
  | mark => cases same
  | name => cases same
  | number begins => exact absurd begins number
  | block fenced => exact absurd (headIs_quote_of_fence fenced) quote
  | string begins => exact absurd begins quote
  | unknown dots other => exact ⟨dots, other, (congrArg Prod.snd same).symm⟩

/-- A character makes no pair with a unit that is no second half. -/
theorem unknownLength_again (h : unknownLength (a ++ behind) = a.length)
    (low : headIs isLowSurrogate rest = false) : unknownLength (a ++ rest) = a.length := by
  match a with
  | [] =>
    have pos : unknownLength behind ≠ 0 := by
      unfold unknownLength
      split
      · split <;> decide
      · decide
    exact absurd h pos
  | [u] =>
    cases rest with
    | nil => rfl
    | cons v rest =>
      have single : isLowSurrogate v = false := low
      show (if (isHighSurrogate u && isLowSurrogate v) = true then 2 else 1) = 1
      rw [single, Bool.and_false, if_neg Bool.false_ne_true]
  | u :: v :: a => exact h

/-- Dots that are not three are not made three by what is no dot. -/
theorem ellipsis_again (h : ¬ellipsis.isPrefixOf (a ++ behind) = true)
    (point : headIs (unit '.' == ·) rest = false) :
    ¬ellipsis.isPrefixOf (a ++ rest) = true := by
  have stops {dots : Text} : (unit '.' :: dots).isPrefixOf rest = false := by
    cases rest with
    | nil => rfl
    | cons v rest =>
      have other : (unit '.' == v) = false := point
      rw [List.isPrefixOf, other, Bool.false_and]
  match a with
  | [] => exact Bool.eq_false_iff.1 stops
  | [u] =>
    show ¬(unit '.' == u && [unit '.', unit '.'].isPrefixOf rest) = true
    rw [stops, Bool.and_false]
    exact Bool.false_ne_true
  | [u, v] =>
    show ¬(unit '.' == u && (unit '.' == v && [unit '.'].isPrefixOf rest)) = true
    rw [stops, Bool.and_false, Bool.and_false]
    exact Bool.false_ne_true
  | u :: v :: w :: a => exact h

/-! ## Lexemes -/

theorem number_again {kind : TokenKind} (some : a ≠ [])
    (h : number (a ++ behind) = (kind, a.length)) (hr : AtGap rest) :
    number (a ++ rest) = (kind, a.length) := by
  have free := number_free (a ++ behind)
  rw [h, List.drop_left] at free
  have alone : number (a ++ behind) = number a := number_append some free fun _ => by rw [h]
  have unsigned : headIs isSign rest = false := hr.headIs (by decide)
  have again : number (a ++ rest) = number a :=
    number_append some (hr.headIs (by decide)) fun sign =>
      absurd sign (Bool.eq_false_iff.1 unsigned)
  rw [again, ← alone, h]

/-- A lexeme is read again in front of a gap, unless it is a string that was not closed. -/
theorem lexeme_again {kind : TokenKind} (some : a ≠ [])
    (h : lexeme (a ++ behind) = (kind, a.length))
    (closed : kind = .error → headIs (· == unit '"') a = false) (hr : AtGap rest) :
    lexeme (a ++ rest) = (kind, a.length) := by
  have head (q : CodeUnit → Bool) (more : Text) : headIs q (a ++ more) = headIs q a := by
    cases a with
    | nil => exact absurd rfl some
    | cons u a => rfl
  by_cases ok : kind = .error
  · subst ok
    by_cases begins : headIs beginsNumber a = true
    · rw [lexeme_number ((head _ _).trans begins)] at h ⊢
      exact number_again some h hr
    · have quote := Bool.eq_false_iff.1 (closed rfl)
      obtain ⟨dots, other, length⟩ := unknown_of_error h (by rwa [head]) (by rwa [head])
      rw [head] at other
      rw [lexeme_unknown (ellipsis_again dots (hr.headIs (by decide))) (by rwa [head]),
        unknownLength_again length (hr.headIs (by decide))]
  · have stops : Stops rest := hr.headIs (by decide)
    have again := (lexeme_local h ok (ends_of_stops fun _ => stops)).2
    rwa [List.take_left] at again

end Lexer

open Lexer

/-! ## Tokens -/

/-- The text of the token is read as the token wherever a gap follows. -/
def Token.StandsAlone (t : Token) : Prop :=
  ∀ rest : Text, AtGap rest → lexemes (t.text ++ rest) = t.lexeme :: lexemes rest

theorem lex_standsAlone {source : Int} {text : Text} {t : Token} (ht : t ∈ lex source text)
    (closed : t.kind = .error → headIs (· == unit '"') t.text = false) : t.StandsAlone := by
  intro rest hr
  obtain ⟨front, behind, -, -, here, noGap⟩ := lexFrom_mem ht
  have some := text_ne_nil_of_mem ht
  have again := lexeme_again some here closed hr
  unfold Token.lexeme
  generalize t.text = a at here noGap some again ⊢
  cases a with
  | nil => exact absurd rfl some
  | cons u a =>
    have first := lexemes_cons (gapLength_head noGap (a ++ rest))
    rw [← List.cons_append, again, List.take_left, List.drop_left] at first
    exact first

/-- What may be put between two tokens. -/
structure Separator where
  text : Text
  some : text ≠ []
  blank : ∀ u ∈ text, u ∈ blanks

theorem Separator.atGap (s : Separator) (rest : Text) : AtGap (s.text ++ rest) := by
  obtain ⟨text, some, blank⟩ := s
  cases text with
  | nil => exact absurd rfl some
  | cons u text =>
    rintro v ⟨⟩
    exact blank u List.mem_cons_self

theorem Separator.isGap (s : Separator) : IsGap s.text := fun u hu =>
  isIgnored_iff.2 (s.blank u hu)

/-- The texts with separators between them. -/
def respaced (separator : Nat → Separator) : List Text → Text
  | [] => []
  | [t] => t
  | t :: more => t ++ ((separator 0).text ++ respaced (fun i => separator (i + 1)) more)

theorem lexemes_respaced {tokens : List Token} (each : ∀ t ∈ tokens, t.StandsAlone)
    (separator : Nat → Separator) :
    lexemes (respaced separator (tokens.map Token.text)) = tokens.map Token.lexeme := by
  induction tokens generalizing separator with
  | nil => exact lexemes_nil
  | cons t tokens ih =>
    obtain ⟨alone, each⟩ := List.forall_mem_cons.1 each
    cases tokens with
    | nil =>
      have last := alone [] atGap_nil
      rwa [List.append_nil, lexemes_nil] at last
    | cons t' tokens =>
      show lexemes (t.text ++
        ((separator 0).text ++ respaced _ ((t' :: tokens).map Token.text))) = _
      rw [alone _ ((separator 0).atGap _), lexemes_gap (separator 0).isGap, ih each]
      rfl

/-- The tokens of a text are found again, with the same kinds and texts, where they are written with
any separators between them. Only a string that was not closed could go on into a separator. -/
theorem lex_respaced (source source' : Int) (text : Text) (separator : Nat → Separator)
    (closed : ∀ t ∈ lex source text, t.kind = .error → headIs (· == unit '"') t.text = false) :
    (lex source' (respaced separator ((lex source text).map Token.text))).map Token.lexeme =
      (lex source text).map Token.lexeme := by
  rw [lex_lexemes]
  exact lexemes_respaced (fun t ht => lex_standsAlone ht (closed t ht)) separator

/-- Numbers and characters that are no tokens, run together. -/
def crowdedText : Text := "a\"\"1.+2e-x..?-\x7b"

def commaLine : Separator where
  text := ",\n"
  some := by decide
  blank u hu := by
    have gap : IsGap ",\n" := by decide
    exact isIgnored_iff.1 (gap u hu)

theorem crowdedText_respaced :
    respaced (fun _ => commaLine) ((lex 1 crowdedText).map Token.text) =
        "a,\n\"\",\n1.,\n+,\n2e-x..,\n?,\n-,\n\x7b" ∧
      (lex 2 (respaced (fun _ => commaLine) ((lex 1 crowdedText).map Token.text))).map
        Token.lexeme = (lex 1 crowdedText).map Token.lexeme := by
  refine ⟨by decide +kernel, lex_respaced 1 2 crowdedText (fun _ => commaLine) ?_⟩
  decide +kernel

end GraphQL
