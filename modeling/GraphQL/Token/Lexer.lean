import GraphQL.Token

/-! # Lexical analysis

`lex` cuts a text into tokens and never fails: what is no token of the language becomes a token of
kind `error`. Between tokens lie gaps of ignored units and comments.

* `gapLength` measures the gap at the head of a text,
* `lexeme` gives kind and length of the lexeme at the head of a non-empty text,
* `lexFrom` alternates the two. -/

namespace GraphQL.Lexer

set_option autoImplicit false

/-! ## Classes of code units -/

def isDigit (u : CodeUnit) : Bool := unit '0' ≤ u && u ≤ unit '9'

def isNameStart (u : CodeUnit) : Bool :=
  (unit 'a' ≤ u && u ≤ unit 'z') || (unit 'A' ≤ u && u ≤ unit 'Z') || u == unit '_'

def isNameContinue (u : CodeUnit) : Bool := isNameStart u || isDigit u

def isLineEnd (u : CodeUnit) : Bool := u == unit '\n' || u == unit '\r'

/-- Units without meaning between tokens; the comma is one of them. -/
def isIgnored (u : CodeUnit) : Bool :=
  u == unit ' ' || u == unit '\t' || isLineEnd u || u == unit ',' || u == 0xFEFF

def punctuators : Text :=
  ['!', '$', '&', '(', ')', ':', '=', '@', '[', ']', '{', '|', '}'].map unit

/-- The head of the text satisfies `p`. -/
def headIs (p : CodeUnit → Bool) (t : Text) : Bool := t.head?.any p

/-! ## Gaps -/

/-- Length of the ignored units and comments at the head; `inComment` says whether the text starts
inside a comment, which runs to the end of its line. -/
def gapLength (inComment : Bool) : Text → Nat
  | [] => 0
  | u :: rest =>
    if inComment then 1 + gapLength (!isLineEnd u) rest
    else if u == unit '#' then 1 + gapLength true rest
    else if isIgnored u then 1 + gapLength false rest
    else 0

/-! ## Numbers -/

def digitsLength (t : Text) : Nat := (t.takeWhile isDigit).length

/-- Length of the numeral at the head, `0|[1-9][0-9]*`, or how far it is well formed. A zero is not
followed by another digit. -/
def naturalPart (t : Text) : Except Nat Nat :=
  if headIs (· == unit '0') t then
    if headIs isDigit (t.drop 1) then .error 1 else .ok 1
  else if headIs isDigit t then .ok (digitsLength t)
  else .error 0

/-- Length of the numeral at the head with its sign, or how far it is well formed. -/
def integerPart (t : Text) : Except Nat Nat :=
  if headIs (· == unit '-') t then
    match naturalPart (t.drop 1) with
    | .ok n => .ok (n + 1)
    | .error n => .error (n + 1)
  else naturalPart t

/-- Length of the fraction at the head, 0 without a point, or how far it is well formed. -/
def fractionPart (t : Text) : Except Nat Nat :=
  if headIs (· == unit '.') t then
    if headIs isDigit (t.drop 1) then .ok (1 + digitsLength (t.drop 1)) else .error 1
  else .ok 0

/-- Length of the exponent at the head, 0 without a mark, or how far it is well formed. -/
def exponentPart (t : Text) : Except Nat Nat :=
  if headIs (fun u => u == unit 'e' || u == unit 'E') t then
    let sign := if headIs (fun u => u == unit '+' || u == unit '-') (t.drop 1) then 2 else 1
    if headIs isDigit (t.drop sign) then .ok (sign + digitsLength (t.drop sign)) else .error sign
  else .ok 0

/-- Units that a number must not run into. -/
def gluesToNumber (u : CodeUnit) : Bool := isNameContinue u || u == unit '.'

/-- Kind and length of the number at the head, or how far it is well formed. -/
def wellFormedNumber (t : Text) : Except Nat (TokenKind × Nat) :=
  match integerPart t with
  | .error n => .error n
  | .ok i =>
    match fractionPart (t.drop i) with
    | .error n => .error (i + n)
    | .ok f =>
      match exponentPart (t.drop (i + f)) with
      | .error n => .error (i + f + n)
      | .ok e =>
        if headIs gluesToNumber (t.drop (i + f + e)) then .error (i + f + e)
        else .ok (if f + e = 0 then .int else .float, i + f + e)

/-- A malformed number is one `error` token together with all it runs into. -/
def number (t : Text) : TokenKind × Nat :=
  match wellFormedNumber t with
  | .ok found => found
  | .error n => (.error, n + ((t.drop n).takeWhile gluesToNumber).length)

/-! ## Strings -/

/-- Three quotes, the fence of a block string. -/
def fence : Text := [unit '"', unit '"', unit '"']

/-- A fence that does not close the block string it stands in. -/
def escapedFence : Text := unit '\\' :: fence

/-- The same lexeme with `n` more units in front. -/
def lengthen (n : Nat) (lexeme : TokenKind × Nat) : TokenKind × Nat := (lexeme.1, n + lexeme.2)

/-- What follows the opening fence of a block string: all up to the closing one. Without one the
rest of the text is an `error`. -/
def blockStringTail : Text → TokenKind × Nat
  | [] => (.error, 0)
  | u :: rest =>
    if escapedFence.isPrefixOf (u :: rest) then lengthen 4 (blockStringTail (rest.drop 3))
    else if fence.isPrefixOf (u :: rest) then (.string, 3)
    else lengthen 1 (blockStringTail rest)
termination_by t => t.length
decreasing_by all_goals simp only [List.length_drop, List.length_cons]; omega

/-- What follows the opening quote of a string: all up to the closing one. A backslash takes the
next unit with it, whatever that is. Where the line ends first the lexeme is an `error`. -/
def stringTail : Text → TokenKind × Nat
  | [] => (.error, 0)
  | u :: rest =>
    if isLineEnd u then (.error, 0)
    else if u == unit '\\' then
      match rest with
      | [] => (.error, 1)
      | _ :: rest => lengthen 2 (stringTail rest)
    else if u == unit '"' then (.string, 1)
    else lengthen 1 (stringTail rest)

/-! ## Lexemes -/

/-- The punctuator of three dots. -/
def ellipsis : Text := [unit '.', unit '.', unit '.']

/-- One character that starts no token: two units where they pair up. -/
def unknownLength : Text → Nat
  | u :: v :: _ => if isHighSurrogate u && isLowSurrogate v then 2 else 1
  | _ => 1

/-- Kind and length of the lexeme at the head of a text that starts with no gap. -/
def lexeme (t : Text) : TokenKind × Nat :=
  if ellipsis.isPrefixOf t then (.punctuator, 3)
  else if headIs punctuators.contains t then (.punctuator, 1)
  else if headIs isNameStart t then (.name, (t.takeWhile isNameContinue).length)
  else if headIs (fun u => u == unit '-' || isDigit u) t then number t
  else if fence.isPrefixOf t then lengthen 3 (blockStringTail (t.drop 3))
  else if headIs (· == unit '"') t then lengthen 1 (stringTail (t.drop 1))
  else (.error, unknownLength t)

theorem naturalPart_pos {t : Text} (h : headIs isDigit t = true) :
    (∃ n, naturalPart t = .ok (n + 1)) ∨ ∃ n, naturalPart t = .error (n + 1) := by
  match t, h with
  | u :: rest, h =>
    have hu : isDigit u = true := by simpa [headIs] using h
    unfold naturalPart
    rw [if_pos h]
    split
    · split
      · exact .inr ⟨0, rfl⟩
      · exact .inl ⟨0, rfl⟩
    · exact .inl ⟨digitsLength rest, by simp [digitsLength, hu]⟩

/-- A text that starts with a sign or a digit has an integer part, perhaps a malformed one. -/
theorem integerPart_pos {t : Text} (h : headIs (fun u => u == unit '-' || isDigit u) t = true) :
    (∃ n, integerPart t = .ok (n + 1)) ∨ ∃ n, integerPart t = .error (n + 1) := by
  unfold integerPart
  split
  · cases naturalPart (t.drop 1) with
    | ok n => exact .inl ⟨n, rfl⟩
    | error n => exact .inr ⟨n, rfl⟩
  next hm =>
    refine naturalPart_pos ?_
    cases t with
    | nil => simp [headIs] at h
    | cons u rest =>
      simp only [headIs, List.head?_cons, Option.any_some, Bool.not_eq_true] at hm h ⊢
      simpa [hm] using h

theorem number_pos {t : Text} (h : headIs (fun u => u == unit '-' || isDigit u) t = true) :
    0 < (number t).2 := by
  unfold number wellFormedNumber
  rcases integerPart_pos h with ⟨n, hn⟩ | ⟨n, hn⟩
  · rw [hn]
    dsimp only
    cases fractionPart (t.drop (n + 1)) with
    | error m => dsimp only; omega
    | ok f =>
      dsimp only
      cases exponentPart (t.drop (n + 1 + f)) with
      | error m => dsimp only; omega
      | ok e =>
        dsimp only
        by_cases hg : headIs gluesToNumber (t.drop (n + 1 + f + e)) = true
        · rw [if_pos hg]
          dsimp only
          omega
        · rw [if_neg hg]
          dsimp only
          omega
  · rw [hn]
    dsimp only
    omega

theorem lexeme_pos (u : CodeUnit) (rest : Text) : 0 < (lexeme (u :: rest)).2 := by
  unfold lexeme
  split
  · exact Nat.zero_lt_succ _
  split
  · exact Nat.zero_lt_succ _
  split
  next h =>
    have hu : isNameStart u = true := by simpa [headIs] using h
    have hc : isNameContinue u = true := by simp [isNameContinue, hu]
    simp [hc]
  split
  next h => exact number_pos h
  split
  · simp only [lengthen]
    omega
  split
  · simp only [lengthen]
    omega
  · unfold unknownLength
    split
    · split <;> exact Nat.zero_lt_succ _
    · exact Nat.zero_lt_succ _

/-! ## Documents -/

/-- The tokens of `t`, which starts at offset `start` of the document `source`. -/
def lexFrom (source : Int) (start : Nat) (t : Text) : List Token :=
  match _h : t.drop (gapLength false t) with
  | [] => []
  | u :: rest =>
    let found := lexeme (u :: rest)
    let text := (u :: rest).take found.2
    let start := start + gapLength false t
    let stop := start + text.length
    ⟨found.1, text, ⟨source, start, stop⟩⟩ :: lexFrom source stop ((u :: rest).drop found.2)
termination_by t.length
decreasing_by
  have hlen := congrArg List.length _h
  have hpos := lexeme_pos u rest
  simp only [List.length_drop, List.length_cons] at hlen ⊢
  omega

end GraphQL.Lexer

namespace GraphQL

def lex (source : Int) (t : Text) : List Token := Lexer.lexFrom source 0 t

end GraphQL
