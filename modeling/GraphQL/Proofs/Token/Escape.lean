import Mathlib.Data.List.Forall2
import GraphQL.Proofs.Token.Quoted
import GraphQL.Token.StringValue

/-! # Strings are read as they are written

A unit can be written in a string as itself, as a letter behind a backslash or as four hexadecimal
digits, `Spells`. Whichever way each unit of a text is written, the string is one token and its
value is the text: `lex_quoted`. The lexer and `unescape` look for escapes apart from each other;
`stringTail_spelled` and `unescape_spelled` say that both read a spelling to its end. -/

namespace GraphQL

set_option autoImplicit false

open Lexer

variable {s : Text} {parts : List Text} {u v : CodeUnit} {n : Nat}

/-! ## Spellings -/

/-- The letters that may stand behind a backslash, each with the unit that is meant. -/
def letterEscapes : List (CodeUnit × CodeUnit) :=
  [(unit '"', 0x22), (unit '/', 0x2F), (unit '\\', 0x5C), (unit 'b', 0x08), (unit 'f', 0x0C),
    (unit 'n', 0x0A), (unit 'r', 0x0D), (unit 't', 0x09)]

/-- The unit is the hexadecimal digit for a number below 16, in either case. -/
def IsHexDigit (n : Nat) (u : CodeUnit) : Prop :=
  ("0123456789abcdef" : Text)[n]? = some u ∨ ("0123456789ABCDEF" : Text)[n]? = some u

/-- The ways to write a unit in a string. -/
inductive Spells (u : CodeUnit) : Text → Prop where
  | plain (quote : u ≠ unit '"') (backslash : u ≠ unit '\\') (feed : u ≠ unit '\n')
      (carriage : u ≠ unit '\r') : Spells u [u]
  | letter {e : CodeUnit} (escape : (e, u) ∈ letterEscapes) : Spells u [unit '\\', e]
  | digits {a b c d : CodeUnit} {i j k l : Nat} (first : IsHexDigit i a) (second : IsHexDigit j b)
      (third : IsHexDigit k c) (fourth : IsHexDigit l d)
      (value : u.toNat = 0x1000 * i + 0x100 * j + 0x10 * k + l) :
      Spells u [unit '\\', unit 'u', a, b, c, d]

/-- The text between quotes. -/
def quoted (t : Text) : Text := unit '"' :: (t ++ [unit '"'])

/-! ## Where the lexer finds the end -/

theorem stringTail_plain (quote : u ≠ unit '"') (backslash : u ≠ unit '\\')
    (line : isLineEnd u = false) (rest : Text) :
    stringTail (u :: rest) = lengthen 1 (stringTail rest) := by
  rw [stringTail.eq_def]
  dsimp only
  rw [line, if_neg Bool.false_ne_true, if_neg fun same => backslash (beq_iff_eq.1 same),
    if_neg fun same => quote (beq_iff_eq.1 same)]

theorem stringTail_quote (rest : Text) : stringTail (unit '"' :: rest) = (.string, 1) := by
  rw [stringTail.eq_def]
  rfl

theorem stringTail_escape (u : CodeUnit) (rest : Text) :
    stringTail (unit '\\' :: u :: rest) = lengthen 2 (stringTail rest) := rfl

theorem lengthen_lengthen (m n : Nat) (found : TokenKind × Nat) :
    lengthen m (lengthen n found) = lengthen (m + n) found := by
  rw [lengthen, lengthen, lengthen, Nat.add_assoc]

theorem IsHexDigit.stringTail (h : IsHexDigit n u) (rest : Text) :
    Lexer.stringTail (u :: rest) = lengthen 1 (Lexer.stringTail rest) := by
  have apart : ("0123456789abcdefABCDEF" : Text).all fun v =>
      v ≠ unit '"' ∧ v ≠ unit '\\' ∧ isLineEnd v = false := by decide +kernel
  have digit : u ∈ ("0123456789abcdefABCDEF" : Text) := by
    have lower : ("0123456789abcdef" : Text) ⊆ "0123456789abcdefABCDEF" := by decide +kernel
    have upper : ("0123456789ABCDEF" : Text) ⊆ "0123456789abcdefABCDEF" := by decide +kernel
    obtain here | here := h
    · exact lower (List.mem_of_getElem? here)
    · exact upper (List.mem_of_getElem? here)
  obtain ⟨quote, backslash, line⟩ := of_decide_eq_true (List.all_eq_true.1 apart u digit)
  exact stringTail_plain quote backslash line rest

/-- A spelled unit lies inside the string. -/
theorem Spells.stringTail {part : Text} (h : Spells u part) (rest : Text) :
    Lexer.stringTail (part ++ rest) = lengthen part.length (Lexer.stringTail rest) := by
  cases h with
  | plain quote backslash feed carriage =>
    have line : isLineEnd u = false :=
      Bool.or_eq_false_iff.2 ⟨beq_eq_false_iff_ne.2 feed, beq_eq_false_iff_ne.2 carriage⟩
    exact stringTail_plain quote backslash line rest
  | letter escape => exact stringTail_escape _ rest
  | @digits a b c d i j k l first second third fourth value =>
    calc Lexer.stringTail (unit '\\' :: unit 'u' :: a :: b :: c :: d :: rest)
      _ = lengthen 2 (lengthen 1 (lengthen 1 (lengthen 1 (lengthen 1
            (Lexer.stringTail rest))))) := by
          rw [stringTail_escape, first.stringTail, second.stringTail, third.stringTail,
            fourth.stringTail]
      _ = lengthen 6 (Lexer.stringTail rest) := by simp only [lengthen_lengthen]

theorem stringTail_spelled (h : List.Forall₂ Spells s parts) (rest : Text) :
    stringTail (parts.flatten ++ unit '"' :: rest) = (.string, parts.flatten.length + 1) := by
  induction h with
  | nil => exact stringTail_quote rest
  | cons here _ ih =>
    rw [List.flatten_cons, List.append_assoc, here.stringTail, ih, lengthen,
      List.length_append, Nat.add_assoc]

/-! ## What the escapes stand for -/

theorem simpleEscape_letter {e : CodeUnit} (h : (e, u) ∈ letterEscapes) :
    simpleEscape? e = some u := by
  have each : letterEscapes.all fun entry => simpleEscape? entry.1 = some entry.2 := by decide
  exact of_decide_eq_true (List.all_eq_true.1 each (e, u) h)

/-- A digit is read back, and there are 16 of them. -/
theorem IsHexDigit.value (h : IsHexDigit n u) : hexDigit? u = some (UInt16.ofNat n) ∧ n < 16 := by
  have lower : ∀ i < 16,
      ("0123456789abcdef" : Text)[i]?.bind hexDigit? = some (UInt16.ofNat i) := by decide +kernel
  have upper : ∀ i < 16,
      ("0123456789ABCDEF" : Text)[i]?.bind hexDigit? = some (UInt16.ofNat i) := by decide +kernel
  obtain here | here := h
  · have bound : n < 16 := (List.getElem?_eq_some_iff.1 here).1
    have read := lower n bound
    rw [here] at read
    exact ⟨read, bound⟩
  · have bound : n < 16 := (List.getElem?_eq_some_iff.1 here).1
    have read := upper n bound
    rw [here] at read
    exact ⟨read, bound⟩

/-- Four digits are read as the number that they are written for. -/
theorem hexUnit_digits {a b c d : CodeUnit} {i j k l : Nat} (first : IsHexDigit i a)
    (second : IsHexDigit j b) (third : IsHexDigit k c) (fourth : IsHexDigit l d)
    (value : u.toNat = 0x1000 * i + 0x100 * j + 0x10 * k + l) (rest : Text) :
    hexUnit? (a :: b :: c :: d :: rest) = some u := by
  obtain ⟨readA, boundA⟩ := first.value
  obtain ⟨readB, boundB⟩ := second.value
  obtain ⟨readC, boundC⟩ := third.value
  obtain ⟨readD, boundD⟩ := fourth.value
  rw [hexUnit?, readA, readB, readC, readD]
  refine congrArg some (UInt16.toNat_inj.1 ?_)
  simp only [UInt16.toNat_add, UInt16.toNat_mul, UInt16.toNat_ofNat', UInt16.reduceToNat]
  omega

theorem unescape_plain (backslash : u ≠ unit '\\') (rest : Text) :
    unescape (u :: rest) = u :: unescape rest := by
  rw [unescape.eq_def]
  exact if_neg fun same => backslash (beq_iff_eq.1 same)

theorem unescape_letter {e : CodeUnit} (h : simpleEscape? e = some u) (rest : Text) :
    unescape (unit '\\' :: e :: rest) = u :: unescape rest := by
  rw [unescape.eq_def]
  dsimp only
  rw [beq_self_eq_true, if_pos rfl, h]

theorem unescape_digits {digits : Text} (h : hexUnit? digits = some u) :
    unescape (unit '\\' :: unit 'u' :: digits) = u :: unescape (digits.drop 4) := by
  have letter : simpleEscape? (unit 'u') = none := by decide
  rw [unescape.eq_def]
  dsimp only
  rw [beq_self_eq_true, if_pos rfl, letter, beq_self_eq_true, if_pos rfl, h]

/-- A spelling stands for the unit. -/
theorem Spells.unescape {part : Text} (h : Spells u part) (rest : Text) :
    GraphQL.unescape (part ++ rest) = u :: GraphQL.unescape rest := by
  cases h with
  | plain quote backslash feed carriage => exact unescape_plain backslash rest
  | letter escape => exact unescape_letter (simpleEscape_letter escape) rest
  | digits first second third fourth value =>
    exact unescape_digits (hexUnit_digits first second third fourth value rest)

theorem unescape_spelled (h : List.Forall₂ Spells s parts) : unescape parts.flatten = s := by
  induction h with
  | nil => rw [List.flatten_nil, unescape]
  | cons here _ ih => rw [List.flatten_cons, here.unescape, ih]

/-! ## Whole strings -/

/-- No spelling begins with a quote. -/
theorem Spells.head {part : Text} (h : Spells u part) :
    ∃ v rest, part = v :: rest ∧ v ≠ unit '"' := by
  cases h with
  | plain quote => exact ⟨u, [], rfl, quote⟩
  | letter => exact ⟨_, _, rfl, by decide⟩
  | digits => exact ⟨_, _, rfl, by decide⟩

/-- Between quotes no spelling makes up a fence. -/
theorem quoted_single (h : List.Forall₂ Spells s parts) :
    fence.isPrefixOf (quoted parts.flatten) = false := by
  cases h with
  | nil => rfl
  | @cons u part s parts here more =>
    obtain ⟨v, rest, rfl, other⟩ := here.head
    have apart : (unit '"' == v) = false := beq_eq_false_iff_ne.2 other.symm
    show (unit '"' == unit '"' && (unit '"' == v && _)) = false
    rw [apart, Bool.false_and, Bool.and_false]

theorem lexeme_quoted (h : List.Forall₂ Spells s parts) :
    lexeme (quoted parts.flatten) = (.string, (quoted parts.flatten).length) := by
  have single : ¬fence.isPrefixOf (quoted parts.flatten) = true :=
    Bool.eq_false_iff.1 (quoted_single h)
  have tail : stringTail (parts.flatten ++ [unit '"']) = (.string, parts.flatten.length + 1) :=
    stringTail_spelled h []
  rw [lexeme_quote rfl, if_neg single]
  show lengthen 1 (stringTail (parts.flatten ++ [unit '"'])) = _
  rw [tail, quoted, List.length_cons, List.length_append, List.length_singleton]
  exact Prod.ext rfl (Nat.add_comm _ _)

/-- A text that is one lexeme is one token. -/
theorem lex_lexeme (source : Int) {rest : Text} {kind : TokenKind}
    (noGap : gapLength false (u :: rest) = 0)
    (whole : lexeme (u :: rest) = (kind, (u :: rest).length)) :
    lex source (u :: rest) = [⟨kind, u :: rest, ⟨source, 0, ((u :: rest).length : Nat)⟩⟩] := by
  have stop : (u :: rest).length = 0 + ((u :: rest).take (u :: rest).length).length := by
    rw [List.take_length, Nat.zero_add]
  have step : lexFrom source 0 (u :: rest) = _ := lexFrom_step source 0 (u :: rest).length
    (by rw [noGap, List.drop_zero]) whole.symm (by rw [noGap]) stop
  rw [List.take_length, List.drop_length] at step
  rw [lex, step, lexFrom_nil source _ rfl]
  rfl

theorem strip_quoted (t : Text) : strip 1 (quoted t) = t := by
  have length : (quoted t).length - 2 * 1 = t.length := by
    rw [quoted, List.length_cons, List.length_append, List.length_singleton]
    omega
  rw [strip, length]
  exact List.take_left

/-- However each unit of a text is written, between quotes it is one string that is no block string
and stands for the text. -/
theorem lex_quoted (source : Int) (h : List.Forall₂ Spells s parts) :
    ∃ t : Token, lex source (quoted parts.flatten) = [t] ∧
      t.kind = .string ∧ t.text = quoted parts.flatten ∧
      t.span = ⟨source, 0, ((quoted parts.flatten).length : Nat)⟩ ∧
      isBlockString t = false ∧ stringValue t = s := by
  refine ⟨_, lex_lexeme source rfl (lexeme_quoted h), rfl, rfl, rfl, quoted_single h, ?_⟩
  have single : ¬fence.isPrefixOf (quoted parts.flatten) = true :=
    Bool.eq_false_iff.1 (quoted_single h)
  show (if fence.isPrefixOf (quoted parts.flatten) then _
    else unescape (strip 1 (quoted parts.flatten))) = s
  rw [if_neg single, strip_quoted, unescape_spelled h]

/-- A quote, a line feed, half of a surrogate pair, a slash and a letter. -/
def spelledText : Text := [0x22, 0x0A, 0xD83D, 0x2F, 0x62]

/-- A letter escape, digits of both cases, and a unit that stands for itself. -/
def spelledParts : List Text := ["\\\"", "\\u000a", "\\uD83d", "/", "\\u0062"]

theorem spelledText_spells : List.Forall₂ Spells spelledText spelledParts := by
  have zero : IsHexDigit 0 (unit '0') := .inl (by decide +kernel)
  refine .cons ?_ (.cons ?_ (.cons ?_ (.cons ?_ (.cons ?_ .nil))))
  · exact .letter (by decide)
  · have a : IsHexDigit 10 (unit 'a') := .inl (by decide +kernel)
    exact .digits zero zero zero a (by decide)
  · have d : IsHexDigit 13 (unit 'd') := .inl (by decide +kernel)
    have upperD : IsHexDigit 13 (unit 'D') := .inr (by decide +kernel)
    have eight : IsHexDigit 8 (unit '8') := .inl (by decide +kernel)
    have three : IsHexDigit 3 (unit '3') := .inr (by decide +kernel)
    exact .digits upperD eight three d (by decide)
  · exact .plain (by decide) (by decide) (by decide) (by decide)
  · have six : IsHexDigit 6 (unit '6') := .inl (by decide +kernel)
    have two : IsHexDigit 2 (unit '2') := .inl (by decide +kernel)
    exact .digits zero zero six two (by decide)

theorem spelledText_quoted :
    quoted spelledParts.flatten = "\"\\\"\\u000a\\uD83d/\\u0062\"" ∧
      ∃ t : Token, lex 1 (quoted spelledParts.flatten) = [t] ∧
        t.kind = .string ∧ t.text = quoted spelledParts.flatten ∧
        t.span = ⟨1, 0, ((quoted spelledParts.flatten).length : Nat)⟩ ∧
        isBlockString t = false ∧ stringValue t = spelledText :=
  ⟨by decide +kernel, lex_quoted 1 spelledText_spells⟩

end GraphQL
