import Mathlib.Computability.Language
import GraphQL.Proofs.Token.Extent

/-! # Numbers are lexed exactly

The literals of numbers are regular languages. A token that begins as a number does is a literal
that nothing goes on with, or else an `error` token where no literal is to be found.

* `intLiteral` and `floatLiteral` are the languages,
* `integerPart_eq_ok`, `fractionPart_eq_ok` and `exponentPart_eq_ok` say what each part of the lexer
  accepts, and `wellFormedNumber_iff` what all of it does,
* `lex_number` is about the tokens of a text. -/

namespace GraphQL

set_option autoImplicit false

namespace Lexer

open scoped Computability

variable {t rest a b : Text} {u : CodeUnit} {n : Nat}

/-! ## Languages -/

/-- The texts of one unit of a class. -/
def oneOf (p : CodeUnit → Bool) : Language CodeUnit := {t | ∃ u, p u = true ∧ t = [u]}

def orEmpty (l : Language CodeUnit) : Language CodeUnit := 1 + l

def isNonZero (u : CodeUnit) : Bool := unit '1' ≤ u && u ≤ unit '9'

/-- `0|[1-9][0-9]*` -/
def numeral : Language CodeUnit := oneOf (· == unit '0') + oneOf isNonZero * (oneOf isDigit)∗

/-- `-?(0|[1-9][0-9]*)` -/
def intLiteral : Language CodeUnit := orEmpty (oneOf (· == unit '-')) * numeral

/-- `[0-9]+` -/
def someDigits : Language CodeUnit := oneOf isDigit * (oneOf isDigit)∗

/-- `\.[0-9]+` -/
def fraction : Language CodeUnit := oneOf (· == unit '.') * someDigits

/-- `[eE][+-]?` -/
def exponentMark : Language CodeUnit := oneOf isExponentMark * orEmpty (oneOf isSign)

/-- `[eE][+-]?[0-9]+` -/
def exponent : Language CodeUnit := exponentMark * someDigits

/-- `-?(0|[1-9][0-9]*)(\.[0-9]+)?([eE][+-]?[0-9]+)?` with a fraction or an exponent. -/
def floatLiteral : Language CodeUnit := intLiteral * (fraction * orEmpty exponent + exponent)

theorem mem_digits : t ∈ (oneOf isDigit)∗ ↔ ∀ u ∈ t, isDigit u = true := by
  rw [Language.mem_kstar]
  constructor
  · rintro ⟨parts, rfl, each⟩ u hu
    obtain ⟨part, hpart, hu⟩ := List.mem_flatten.1 hu
    obtain ⟨v, digit, rfl⟩ := each part hpart
    rwa [List.mem_singleton.1 hu]
  · intro each
    refine ⟨t.map fun u => [u], ?_, fun part hpart => ?_⟩
    · rw [← List.flatMap_def, List.flatMap_singleton']
    obtain ⟨u, hu, rfl⟩ := List.mem_map.1 hpart
    exact ⟨u, each u hu, rfl⟩

theorem mem_someDigits : t ∈ someDigits ↔ headIs isDigit t = true ∧ ∀ u ∈ t, isDigit u = true := by
  rw [someDigits, Language.mem_mul]
  constructor
  · rintro ⟨_, ⟨u, digit, rfl⟩, more, each, rfl⟩
    exact ⟨digit, List.forall_mem_cons.2 ⟨digit, mem_digits.1 each⟩⟩
  · rintro ⟨head, each⟩
    cases t with
    | nil => cases head
    | cons u t => exact ⟨[u], ⟨u, head, rfl⟩, t, mem_digits.2 (List.forall_mem_cons.1 each).2, rfl⟩

theorem isNonZero_iff : isNonZero u = true ↔ isDigit u = true ∧ (u == unit '0') = false := by
  rw [isNonZero, isDigit, Bool.and_eq_true, Bool.and_eq_true, beq_eq_false_iff_ne]
  simp only [decide_eq_true_eq, UInt16.le_iff_toNat_le, ne_eq, ← UInt16.toNat_inj]
  have zero : (unit '0').toNat = 48 := rfl
  have first : (unit '1').toNat = 49 := rfl
  omega

/-! ## Numerals -/

/-- The digits at the head of a text, and the rest of it. -/
theorem digits_split (digit : headIs isDigit t = true) :
    ∃ a rest, t = a ++ rest ∧ a ∈ someDigits ∧ headIs isDigit rest = false ∧
      a.length = digitsLength t := by
  refine ⟨t.take (digitsLength t), t.drop (digitsLength t), (List.take_append_drop _ t).symm, ?_,
    headIs_drop_takeWhile isDigit t, List.length_take_of_le (digitsLength_le t)⟩
  have head := headIs_digits digit isDigit []
  rw [List.append_nil] at head
  exact mem_someDigits.2 ⟨head.trans digit, (covered_takeWhile isDigit t).each⟩

theorem digitsLength_append (h : ∀ u ∈ a, isDigit u = true) (hr : headIs isDigit rest = false) :
    digitsLength (a ++ rest) = a.length := by
  rw [digitsLength, takeWhile_append_stop h hr]

theorem headIs_append {p : CodeUnit → Bool} (h : headIs p a = true) (rest : Text) :
    headIs p (a ++ rest) = true := by
  cases a with
  | nil => cases h
  | cons u a => exact h

theorem naturalPart_eq_ok :
    naturalPart t = .ok n ↔
      ∃ a rest, t = a ++ rest ∧ a ∈ numeral ∧ headIs isDigit rest = false ∧ a.length = n := by
  constructor
  · intro h
    unfold naturalPart at h
    split at h
    next zero =>
      split at h
      · cases h
      next ends =>
        cases h
        cases t with
        | nil => cases zero
        | cons u t => exact ⟨[u], t, rfl, .inl ⟨u, zero, rfl⟩, Bool.eq_false_iff.2 ends, rfl⟩
    next notZero =>
      split at h
      next digit =>
        cases h
        obtain ⟨a, rest, rfl, digits, ends, length⟩ := digits_split digit
        refine ⟨a, rest, rfl, .inr ?_, ends, length⟩
        obtain ⟨head, each⟩ := mem_someDigits.1 digits
        cases a with
        | nil => cases head
        | cons u a =>
          have nonZero : isNonZero u = true := isNonZero_iff.2 ⟨head, Bool.eq_false_iff.2 notZero⟩
          have more := mem_digits.2 (List.forall_mem_cons.1 each).2
          exact ⟨[u], ⟨u, nonZero, rfl⟩, a, more, rfl⟩
      next => cases h
  · rintro ⟨a, rest, rfl, ⟨u, zero, rfl⟩ | ⟨_, ⟨u, nonZero, rfl⟩, a, each, rfl⟩, ends, rfl⟩
    · have zero' : headIs (· == unit '0') ([u] ++ rest) = true := zero
      rw [naturalPart, if_pos zero', if_neg]
      · rfl
      · exact Bool.eq_false_iff.1 ends
    · obtain ⟨digit, notZero⟩ := isNonZero_iff.1 nonZero
      have notZero' : ¬headIs (· == unit '0') (([u] ++ a) ++ rest) = true :=
        Bool.eq_false_iff.1 notZero
      have digit' : headIs isDigit (([u] ++ a) ++ rest) = true := digit
      have digits : ∀ v ∈ [u] ++ a, isDigit v = true :=
        List.forall_mem_cons.2 ⟨digit, mem_digits.1 each⟩
      rw [naturalPart, if_neg notZero', if_pos digit', digitsLength_append digits ends]

/-- A numeral begins with a digit. -/
theorem numeral_head (h : a ∈ numeral) : headIs isDigit a = true := by
  obtain ⟨u, zero, rfl⟩ | ⟨_, ⟨u, nonZero, rfl⟩, a, -, rfl⟩ := h
  · obtain rfl : u = unit '0' := beq_iff_eq.1 zero
    decide
  · exact (isNonZero_iff.1 nonZero).1

theorem headIs_apart {p q : CodeUnit → Bool} (h : headIs p t = true)
    (apart : ∀ u, p u = true → q u = false) : headIs q t = false := by
  cases t with
  | nil => cases h
  | cons u t => exact apart u h

theorem notMinus_of_digit (h : isDigit u = true) : (u == unit '-') = false := by
  refine beq_eq_false_iff_ne.2 ?_
  rintro rfl
  exact absurd h (by decide)

/-! ## The parts of a number -/

/-- The integer part is the literal that no digit goes on with. -/
theorem integerPart_eq_ok :
    integerPart t = .ok n ↔
      ∃ a rest, t = a ++ rest ∧ a ∈ intLiteral ∧ headIs isDigit rest = false ∧ a.length = n := by
  constructor
  · intro h
    unfold integerPart at h
    split at h
    next sign =>
      split at h
      next m hm =>
        cases h
        cases t with
        | nil => cases sign
        | cons u t =>
          obtain ⟨a, rest, rfl, ha, ends, rfl⟩ := naturalPart_eq_ok.1 hm
          exact ⟨u :: a, rest, rfl, ⟨[u], .inr ⟨u, sign, rfl⟩, a, ha, rfl⟩, ends, rfl⟩
      next => cases h
    next =>
      obtain ⟨a, rest, rfl, ha, ends, length⟩ := naturalPart_eq_ok.1 h
      exact ⟨a, rest, rfl, ⟨[], .inl rfl, a, ha, rfl⟩, ends, length⟩
  · rintro ⟨_, rest, rfl, ⟨_, rfl | ⟨u, sign, rfl⟩, a, ha, rfl⟩, ends, rfl⟩
    · have digit := headIs_append (numeral_head ha) rest
      have unsigned := headIs_apart digit fun _ => notMinus_of_digit
      show integerPart (a ++ rest) = .ok a.length
      rw [integerPart, if_neg (Bool.eq_false_iff.1 unsigned)]
      exact naturalPart_eq_ok.2 ⟨a, rest, rfl, ha, ends, rfl⟩
    · have signed : headIs (· == unit '-') (([u] ++ a) ++ rest) = true := sign
      have numeral : naturalPart ((([u] ++ a) ++ rest).drop 1) = .ok a.length :=
        naturalPart_eq_ok.2 ⟨a, rest, rfl, ha, ends, rfl⟩
      rw [integerPart, if_pos signed, numeral]
      rfl

/-- The fraction is there, and no digit goes on with it, or there is no point. -/
theorem fractionPart_eq_ok :
    fractionPart t = .ok n ↔
      ∃ b rest, t = b ++ rest ∧ b.length = n ∧
        (b = [] ∧ headIs (· == unit '.') rest = false ∨
          b ∈ fraction ∧ headIs isDigit rest = false) := by
  constructor
  · intro h
    unfold fractionPart at h
    split at h
    next point =>
      split at h
      next digit =>
        cases h
        cases t with
        | nil => cases point
        | cons u t =>
          obtain ⟨a, rest, split, digits, ends, length⟩ := digits_split digit
          rw [List.drop_one, List.tail_cons] at split
          rw [List.drop_one, List.tail_cons] at length
          refine ⟨u :: a, rest, by rw [split]; rfl, ?_, .inr ⟨?_, ends⟩⟩
          · rw [List.length_cons, length, List.drop_one, List.tail_cons, Nat.add_comm]
          · exact ⟨[u], ⟨u, point, rfl⟩, a, digits, rfl⟩
      next => cases h
    next none =>
      cases h
      exact ⟨[], t, rfl, rfl, .inl ⟨rfl, Bool.eq_false_iff.2 none⟩⟩
  · rintro ⟨_, rest, rfl, rfl, ⟨rfl, none⟩ | ⟨⟨_, ⟨u, point, rfl⟩, a, digits, rfl⟩, ends⟩⟩
    · exact if_neg (Bool.eq_false_iff.1 none)
    · obtain ⟨digit, each⟩ := mem_someDigits.1 digits
      have point' : headIs (· == unit '.') (([u] ++ a) ++ rest) = true := point
      have behind : (([u] ++ a) ++ rest).drop 1 = a ++ rest := rfl
      rw [fractionPart, if_pos point', behind, if_pos (headIs_append digit rest),
        digitsLength_append each ends, List.length_append]
      rfl

theorem notSign_of_digit (h : isDigit u = true) : isSign u = false := by
  refine Bool.eq_false_iff.2 fun sign => ?_
  rcases Bool.or_eq_true_iff.1 sign with sign | sign <;> obtain rfl := beq_iff_eq.1 sign <;>
    exact absurd h (by decide)

theorem mark_split (mark : headIs isExponentMark t = true) :
    ∃ c, t = c ++ t.drop (markLength t) ∧ c ∈ exponentMark ∧ c.length = markLength t := by
  cases t with
  | nil => cases mark
  | cons u t =>
    unfold markLength
    rw [List.drop_one, List.tail_cons]
    split
    next sign =>
      cases t with
      | nil => cases sign
      | cons v t => exact ⟨[u, v], rfl, ⟨[u], ⟨u, mark, rfl⟩, [v], .inr ⟨v, sign, rfl⟩, rfl⟩, rfl⟩
    next => exact ⟨[u], rfl, ⟨[u], ⟨u, mark, rfl⟩, [], .inl rfl, rfl⟩, rfl⟩

theorem exponentMark_head {c : Text} (h : c ∈ exponentMark) : headIs isExponentMark c = true := by
  obtain ⟨_, ⟨u, mark, rfl⟩, s, -, rfl⟩ := h
  exact mark

/-- The mark reaches as far as it does where no sign follows. -/
theorem markLength_append {c : Text} (h : c ∈ exponentMark) (hr : headIs isSign rest = false) :
    markLength (c ++ rest) = c.length := by
  obtain ⟨_, ⟨u, -, rfl⟩, _, rfl | ⟨v, sign, rfl⟩, rfl⟩ := h
  · exact if_neg (Bool.eq_false_iff.1 hr)
  · exact if_pos sign

/-- The exponent is there, and no digit goes on with it, or there is no mark. -/
theorem exponentPart_eq_ok :
    exponentPart t = .ok n ↔
      ∃ c rest, t = c ++ rest ∧ c.length = n ∧
        (c = [] ∧ headIs isExponentMark rest = false ∨
          c ∈ exponent ∧ headIs isDigit rest = false) := by
  constructor
  · intro h
    by_cases mark : headIs isExponentMark t = true
    · rw [exponentPart_marked mark] at h
      obtain ⟨c, split, hc, length⟩ := mark_split mark
      split at h
      next digit =>
        cases h
        obtain ⟨a, rest, behind, digits, ends, length'⟩ := digits_split digit
        refine ⟨c ++ a, rest, ?_, ?_, .inr ⟨⟨c, hc, a, digits, rfl⟩, ends⟩⟩
        · rw [List.append_assoc, ← behind]
          exact split
        · rw [List.length_append, length, length']
      next => cases h
    · have none : exponentPart t = .ok 0 := if_neg mark
      rw [none] at h
      cases h
      exact ⟨[], t, rfl, rfl, .inl ⟨rfl, Bool.eq_false_iff.2 mark⟩⟩
  · rintro ⟨_, rest, rfl, rfl, ⟨rfl, none⟩ | ⟨⟨c, hc, a, digits, rfl⟩, ends⟩⟩
    · exact if_neg (Bool.eq_false_iff.1 none)
    · obtain ⟨head, each⟩ := mem_someDigits.1 digits
      have digit : headIs isDigit (a ++ rest) = true := headIs_append head rest
      have mark := markLength_append hc (headIs_apart digit fun _ => notSign_of_digit)
      show exponentPart ((c ++ a) ++ rest) = .ok (c ++ a).length
      rw [List.append_assoc, exponentPart_marked (headIs_append (exponentMark_head hc) _), mark,
        List.drop_left, if_pos digit, digitsLength_append each ends, List.length_append]

/-! ## Numbers -/

theorem fraction_head (h : b ∈ fraction) : headIs (· == unit '.') b = true := by
  obtain ⟨_, ⟨u, point, rfl⟩, a, -, rfl⟩ := h
  exact point

theorem exponent_head {c : Text} (h : c ∈ exponent) : headIs isExponentMark c = true := by
  obtain ⟨c, hc, a, -, rfl⟩ := h
  exact headIs_append (exponentMark_head hc) a

theorem mem_floatLiteral :
    t ∈ floatLiteral ↔ ∃ a b c, t = a ++ (b ++ c) ∧ a ∈ intLiteral ∧ (b = [] ∨ b ∈ fraction) ∧
      (c = [] ∨ c ∈ exponent) ∧ b ++ c ≠ [] := by
  constructor
  · rintro ⟨a, ha, _, ⟨b, hb, c, hc, rfl⟩ | hc, rfl⟩
    · refine ⟨a, b, c, rfl, ha, .inr hb, hc, fun none => ?_⟩
      rw [(List.append_eq_nil_iff.1 none).1] at hb
      cases fraction_head hb
    · refine ⟨a, [], _, rfl, ha, .inl rfl, .inr hc, fun none => ?_⟩
      rw [(List.append_eq_nil_iff.1 none).2] at hc
      cases exponent_head hc
  · rintro ⟨a, b, c, rfl, ha, rfl | hb, hc, some⟩
    · exact ⟨a, ha, _, .inr (hc.resolve_left some), rfl⟩
    · exact ⟨a, ha, _, .inl ⟨b, hb, c, hc, rfl⟩, rfl⟩

/-- The literals of the numbers of a kind. -/
def literal : TokenKind → Language CodeUnit
  | .int => intLiteral
  | .float => floatLiteral
  | _ => 0

theorem mem_literal {kind : TokenKind} :
    t ∈ literal kind ↔ ∃ a b c, t = a ++ (b ++ c) ∧ a ∈ intLiteral ∧ (b = [] ∨ b ∈ fraction) ∧
      (c = [] ∨ c ∈ exponent) ∧ (if b ++ c = [] then TokenKind.int else .float) = kind := by
  have whole (b c : Text) : (if b ++ c = [] then TokenKind.int else .float) = kind ↔
      kind = .int ∧ b ++ c = [] ∨ kind = .float ∧ b ++ c ≠ [] := by
    split <;> simp_all [eq_comm]
  simp only [whole]
  cases kind with
  | int =>
    constructor
    · exact fun h => ⟨t, [], [], by simp, h, .inl rfl, .inl rfl, .inl ⟨rfl, rfl⟩⟩
    · rintro ⟨a, b, c, rfl, ha, -, -, ⟨-, none⟩ | ⟨other, -⟩⟩
      · rw [none, List.append_nil]
        exact ha
      · cases other
  | float => simp [literal, mem_floatLiteral]
  | _ =>
    refine iff_of_false (Language.notMem_zero t) ?_
    rintro ⟨a, b, c, -, -, -, -, ⟨other, -⟩ | ⟨other, -⟩⟩ <;> cases other

theorem gluesToNumber_of_point (h : (u == unit '.') = true) : gluesToNumber u = true := by
  rw [gluesToNumber, h, Bool.or_true]

theorem notDigit_of_point (h : (u == unit '.') = true) : isDigit u = false := by
  obtain rfl := beq_iff_eq.1 h
  decide

theorem notDigit_of_mark (h : isExponentMark u = true) : isDigit u = false := by
  rcases Bool.or_eq_true_iff.1 h with h | h <;> obtain rfl := beq_iff_eq.1 h <;> decide

theorem notPoint_of_mark (h : isExponentMark u = true) : (u == unit '.') = false := by
  rcases Bool.or_eq_true_iff.1 h with h | h <;> obtain rfl := beq_iff_eq.1 h <;> decide

/-- A part that is lacking or begins with what `mark` accepts, in front of other text. -/
theorem headIs_behind {mark p : CodeUnit → Bool} (h : t = [] ∨ headIs mark t = true)
    (apart : ∀ u, mark u = true → p u = false) (hr : headIs p rest = false) :
    headIs p (t ++ rest) = false := by
  obtain rfl | h := h
  · exact hr
  · exact headIs_append_false (headIs_apart h apart) hr

/-- A well-formed number is a literal of its kind that nothing goes on with. -/
theorem wellFormedNumber_iff {kind : TokenKind} :
    wellFormedNumber t = .ok (kind, n) ↔
      ∃ a rest, t = a ++ rest ∧ a ∈ literal kind ∧ headIs gluesToNumber rest = false ∧
        a.length = n := by
  constructor
  · intro h
    obtain ⟨i, f, e, hi, hf, he, free, hk, rfl⟩ := wellFormedNumber_eq_ok.1 h
    obtain ⟨a, rest, rfl, ha, -, rfl⟩ := integerPart_eq_ok.1 hi
    rw [List.drop_left] at hf
    obtain ⟨b, rest, rfl, rfl, hb⟩ := fractionPart_eq_ok.1 hf
    rw [← List.drop_drop, List.drop_left, List.drop_left] at he
    obtain ⟨c, rest, rfl, rfl, hc⟩ := exponentPart_eq_ok.1 he
    rw [← List.drop_drop, ← List.drop_drop, List.drop_left, List.drop_left, List.drop_left] at free
    refine ⟨a ++ (b ++ c), rest, by simp, mem_literal.2 ⟨a, b, c, rfl, ha, ?_, ?_, ?_⟩, free, ?_⟩
    · exact hb.imp And.left And.left
    · exact hc.imp And.left And.left
    · rw [← hk]
      simp
    · simp only [List.length_append]
      omega
  · rintro ⟨_, rest, rfl, h, free, rfl⟩
    obtain ⟨a, b, c, rfl, ha, hb, hc, hk⟩ := mem_literal.1 h
    -- what follows the exponent, what follows the fraction and what follows the integer
    have digitE := headIs_false (fun _ => gluesToNumber_of_digit) free
    have markE := headIs_false (fun _ => gluesToNumber_of_mark) free
    have pointE := headIs_false (fun _ => gluesToNumber_of_point) free
    have digitF := headIs_behind (hc.imp_right exponent_head) (fun _ => notDigit_of_mark) digitE
    have pointF := headIs_behind (hc.imp_right exponent_head) (fun _ => notPoint_of_mark) pointE
    have digitI := headIs_behind (hb.imp_right fraction_head) (fun _ => notDigit_of_point) digitF
    have integer : integerPart (a ++ (b ++ (c ++ rest))) = .ok a.length :=
      integerPart_eq_ok.2 ⟨a, _, rfl, ha, digitI, rfl⟩
    have fraction : fractionPart (b ++ (c ++ rest)) = .ok b.length :=
      fractionPart_eq_ok.2 ⟨b, _, rfl, rfl, hb.imp (⟨·, pointF⟩) (⟨·, digitF⟩)⟩
    have exponent : exponentPart (c ++ rest) = .ok c.length :=
      exponentPart_eq_ok.2 ⟨c, _, rfl, rfl, hc.imp (⟨·, markE⟩) (⟨·, digitE⟩)⟩
    have split : (a ++ (b ++ c)) ++ rest = a ++ (b ++ (c ++ rest)) := by simp
    refine wellFormedNumber_eq_ok.2 ⟨a.length, b.length, c.length, ?_, ?_, ?_, ?_, ?_, ?_⟩
    · rw [split, integer]
    · rw [split, List.drop_left, fraction]
    · rw [split, ← List.drop_drop, List.drop_left, List.drop_left, exponent]
    · rw [split, ← List.drop_drop, ← List.drop_drop, List.drop_left, List.drop_left,
        List.drop_left, free]
    · rw [← hk]
      simp
    · simp only [List.length_append]
      omega

/-! ## Tokens -/

theorem notNameStart_of_digit (h : isDigit u = true) : isNameStart u = false := by
  refine Bool.eq_false_iff.2 fun start => ?_
  simp only [isNameStart, isDigit, Bool.or_eq_true, Bool.and_eq_true, decide_eq_true_eq,
    beq_iff_eq, UInt16.le_iff_toNat_le] at h start
  have nine : (unit '9').toNat = 57 := rfl
  have upper : (unit 'A').toNat = 65 := rfl
  have lower : (unit 'a').toNat = 97 := rfl
  obtain (⟨le, -⟩ | ⟨le, -⟩) | rfl := start
  · omega
  · omega
  · exact absurd h.2 (by decide)

theorem lexeme_number (h : headIs beginsNumber t = true) : lexeme t = number t := by
  have noEllipsis : ¬ellipsis.isPrefixOf t = true := not_isPrefixOf h (by decide)
  have noMark : headIs punctuators.contains t = false := headIs_apart h fun u hu => by
    refine Bool.eq_false_iff.2 fun mark => ?_
    have other : beginsNumber u = false :=
      apart_of_all (by decide) (List.contains_iff_mem.1 mark)
    rw [hu] at other
    cases other
  have noName : headIs isNameStart t = false := headIs_apart h fun u hu => by
    rcases Bool.or_eq_true_iff.1 hu with hu | hu
    · obtain rfl := beq_iff_eq.1 hu
      decide
    · exact notNameStart_of_digit hu
  have here : headIs (fun u => u == unit '-' || isDigit u) t = true := h
  rw [lexeme, if_neg noEllipsis, noMark, noName, if_neg Bool.false_ne_true,
    if_neg Bool.false_ne_true, if_pos here]

/-- A number does not run into what is behind it, whether it is well formed or not. -/
theorem number_free (t : Text) : headIs gluesToNumber (t.drop (number t).2) = false := by
  unfold number
  split
  next found h =>
    obtain ⟨a, rest, rfl, -, free, length⟩ := wellFormedNumber_iff.1 h
    rwa [← length, List.drop_left]
  next n h =>
    rw [← List.drop_drop]
    exact headIs_drop_takeWhile gluesToNumber (t.drop n)

end Lexer

open Lexer

/-- The token is the number that the text begins with which the token and `behind` make up. It is a
literal of its kind, or else an error, and then no literal stands there that nothing goes on with.
In any case the token does not run into what is behind it. -/
def Token.IsNumber (t : Token) (behind : Text) : Prop :=
  headIs gluesToNumber behind = false ∧
    match t.kind with
    | .int => t.text ∈ intLiteral
    | .float => t.text ∈ floatLiteral
    | .error => ∀ a rest, t.text ++ behind = a ++ rest → a ∈ intLiteral ∨ a ∈ floatLiteral →
        headIs gluesToNumber rest = true
    | _ => False

/-- What the lexer of numbers cuts off is a number. -/
theorem Lexer.number_isNumber {t : Token} {behind : Text}
    (h : number (t.text ++ behind) = (t.kind, t.text.length)) : t.IsNumber behind := by
  have free := number_free (t.text ++ behind)
  rw [h, List.drop_left] at free
  refine ⟨free, ?_⟩
  obtain ⟨kind, text, span⟩ := t
  unfold number at h
  split at h
  next found hf =>
    rw [h] at hf
    obtain ⟨a, rest, split, literal, -, length⟩ := wellFormedNumber_iff.1 hf
    obtain ⟨rfl, rfl⟩ := List.append_inj split length.symm
    cases kind with
    | int => exact literal
    | float => exact literal
    | _ => exact absurd literal (Language.notMem_zero _)
  next n hn =>
    obtain rfl : kind = .error := (congrArg Prod.fst h).symm
    intro a rest split literal
    refine Classical.byContradiction fun runs => ?_
    have free : headIs gluesToNumber rest = false := Bool.eq_false_iff.2 runs
    have parsed : ∃ kind, wellFormedNumber (text ++ behind) = .ok (kind, a.length) := by
      obtain int | float := literal
      · exact ⟨.int, wellFormedNumber_iff.2 ⟨a, rest, split, int, free, rfl⟩⟩
      · exact ⟨.float, wellFormedNumber_iff.2 ⟨a, rest, split, float, free, rfl⟩⟩
    obtain ⟨kind, parsed⟩ := parsed
    rw [parsed] at hn
    cases hn

/-- A token that begins as a number does is the number there. -/
theorem lex_number {source : Int} {text : Text} {t : Token} (ht : t ∈ lex source text)
    (begins : headIs beginsNumber t.text = true) :
    ∃ front behind : Text, text = front ++ (t.text ++ behind) ∧
      t.span = ⟨source, front.length, (front.length + t.text.length : Nat)⟩ ∧
      t.IsNumber behind := by
  obtain ⟨front, behind, split, span, here, -⟩ := lexFrom_mem ht
  rw [Nat.zero_add] at span
  rw [lexeme_number (headIs_append begins behind)] at here
  exact ⟨front, behind, split, span, number_isNumber here⟩

/-- A number with all its parts, and one that runs into a name. -/
def numbersText : Text := "-1.50e+3 01.x"

theorem numbersText_exact :
    lex 1 numbersText = [⟨.float, "-1.50e+3", ⟨1, 0, 8⟩⟩, ⟨.error, "01.x", ⟨1, 9, 13⟩⟩] ∧
      (∃ front behind : Text, numbersText = front ++ ("-1.50e+3" ++ behind) ∧
        (⟨1, 0, 8⟩ : Span) = ⟨1, front.length, (front.length + 8 : Nat)⟩ ∧
        Token.IsNumber ⟨.float, "-1.50e+3", ⟨1, 0, 8⟩⟩ behind) ∧
      ∃ front behind : Text, numbersText = front ++ ("01.x" ++ behind) ∧
        (⟨1, 9, 13⟩ : Span) = ⟨1, front.length, (front.length + 4 : Nat)⟩ ∧
        Token.IsNumber ⟨.error, "01.x", ⟨1, 9, 13⟩⟩ behind := by
  have tokens : lex 1 numbersText =
      [⟨.float, "-1.50e+3", ⟨1, 0, 8⟩⟩, ⟨.error, "01.x", ⟨1, 9, 13⟩⟩] := by decide +kernel
  refine ⟨tokens, ?_, ?_⟩
  · have first : (⟨.float, "-1.50e+3", ⟨1, 0, 8⟩⟩ : Token) ∈ lex 1 numbersText := by
      rw [tokens]
      exact List.mem_cons_self
    exact lex_number first (by decide)
  · have second : (⟨.error, "01.x", ⟨1, 9, 13⟩⟩ : Token) ∈ lex 1 numbersText := by
      rw [tokens]
      exact List.mem_cons_of_mem _ List.mem_cons_self
    exact lex_number second (by decide)

end GraphQL
