import GraphQL.Proofs.Token.Legible

/-! # How far lexemes reach

A lexeme lies inside the text it is read from, and ends between two characters of it.

* `Covered` says which units a stretch is made of; those of a number are `isNumeric`, whether it is
  well formed or not,
* `Whole` says that no surrogate pair lies across an offset,
* `LexemeAt` tells lexemes by what they begin with,
* `lexeme_le` and `lexeme_whole` are about any lexeme, `lexFrom_mem` finds it in its text. -/

namespace GraphQL

set_option autoImplicit false

/-- Both halves of a surrogate pair are there, one on each side of the offset. -/
def Text.SplitsPair (t : Text) : Nat → Prop
  | 0 => False
  | n + 1 => t[n]?.any isHighSurrogate = true ∧ t[n + 1]?.any isLowSurrogate = true

instance (t : Text) : DecidablePred t.SplitsPair
  | 0 => inferInstanceAs (Decidable False)
  | n + 1 =>
    inferInstanceAs
      (Decidable (t[n]?.any isHighSurrogate = true ∧ t[n + 1]?.any isLowSurrogate = true))

namespace Lexer

variable {t rest : Text} {u : CodeUnit} {p q : CodeUnit → Bool} {m n : Nat}

/-! ## Stretches of a class -/

/-- The text has so many units, and they are of the class. -/
structure Covered (p : CodeUnit → Bool) (n : Nat) (t : Text) : Prop where
  le : n ≤ t.length
  each : ∀ u ∈ t.take n, p u = true

theorem covered_zero (p : CodeUnit → Bool) (t : Text) : Covered p 0 t :=
  ⟨Nat.zero_le _, by simp⟩

theorem Covered.mono (h : Covered p n t) (sub : ∀ u, p u = true → q u = true) : Covered q n t :=
  ⟨h.le, fun u hu => sub u (h.each u hu)⟩

/-- Two stretches, one behind the other. -/
theorem Covered.add (h : Covered p m t) (h' : Covered p n (t.drop m)) : Covered p (m + n) t where
  le := by
    have := h.le
    have := h'.le
    rw [List.length_drop] at this
    omega
  each := by
    rw [List.take_add, List.forall_mem_append]
    exact ⟨h.each, h'.each⟩

theorem covered_one (h : headIs p t = true) : Covered p 1 t := by
  cases t with
  | nil => cases h
  | cons u t => exact ⟨Nat.succ_le_succ (Nat.zero_le _), by simpa [headIs] using h⟩

theorem covered_takeWhile (p : CodeUnit → Bool) (t : Text) :
    Covered p (t.takeWhile p).length t where
  le := (List.takeWhile_prefix p).length_le
  each := by
    rw [take_takeWhile]
    exact List.all_eq_true.1 List.all_takeWhile

/-- The last unit of a stretch. -/
theorem Covered.last (h : Covered p (n + 1) t) : ∃ u, t[n]? = some u ∧ p u = true := by
  have inside : n < t.length := h.le
  refine ⟨t[n], List.getElem?_eq_getElem inside, h.each _ ?_⟩
  exact List.mem_take_iff_getElem.2 ⟨n, by omega, rfl⟩

/-- The units of a list that are all apart from a class. -/
theorem apart_of_all {l : Text} (apart : l.all (fun v => !p v) = true) (h : u ∈ l) :
    p u = false := by
  have here := List.all_eq_true.1 apart u h
  rwa [Bool.not_eq_true'] at here

/-! ## Numbers -/

def isSign (u : CodeUnit) : Bool := u == unit '+' || u == unit '-'

/-- The units that numbers are made of. -/
def isNumeric (u : CodeUnit) : Bool := gluesToNumber u || isSign u

theorem isNumeric_of_glues (h : gluesToNumber u = true) : isNumeric u = true := by
  rw [isNumeric, h, Bool.true_or]

theorem isNumeric_of_digit (h : isDigit u = true) : isNumeric u = true :=
  isNumeric_of_glues (gluesToNumber_of_digit h)

theorem digits_covered (t : Text) : Covered isNumeric (digitsLength t) t :=
  (covered_takeWhile isDigit t).mono fun _ => isNumeric_of_digit

/-- What a part of a number takes in is numeric, whether the part is well formed or not. -/
def Scans (part : Text → Except Nat Nat) : Prop :=
  ∀ t n, part t = .ok n ∨ part t = .error n → Covered isNumeric n t

theorem headIs_numeric (h : headIs (· == u) t = true) (numeric : isNumeric u = true) :
    headIs isNumeric t = true := by
  cases t with
  | nil => cases h
  | cons v t =>
    obtain rfl : v = u := beq_iff_eq.1 h
    exact numeric

theorem naturalPart_scans : Scans naturalPart := by
  intro t n h
  unfold naturalPart at h
  split at h
  next zero =>
    have one : Covered isNumeric 1 t := covered_one (headIs_numeric zero (by decide))
    split at h
    · obtain h | h := h <;> cases h
      exact one
    · obtain h | h := h <;> cases h
      exact one
  next =>
    split at h
    · obtain h | h := h <;> cases h
      exact digits_covered t
    · obtain h | h := h <;> cases h
      exact covered_zero _ t

theorem integerPart_scans : Scans integerPart := by
  intro t n h
  unfold integerPart at h
  split at h
  next sign =>
    have one : Covered isNumeric 1 t := covered_one (headIs_numeric sign (by decide))
    split at h
    next m hm =>
      obtain h | h := h <;> cases h
      rw [Nat.add_comm]
      exact one.add (naturalPart_scans _ m (.inl hm))
    next m hm =>
      obtain h | h := h <;> cases h
      rw [Nat.add_comm]
      exact one.add (naturalPart_scans _ m (.inr hm))
  next => exact naturalPart_scans t n h

theorem fractionPart_scans : Scans fractionPart := by
  intro t n h
  unfold fractionPart at h
  split at h
  next point =>
    have one : Covered isNumeric 1 t := covered_one (headIs_numeric point (by decide))
    split at h
    · obtain h | h := h <;> cases h
      exact one.add (digits_covered _)
    · obtain h | h := h <;> cases h
      exact one
  next =>
    obtain h | h := h <;> cases h
    exact covered_zero _ t

/-- How far the mark of an exponent reaches with the sign that may follow it. -/
def markLength (t : Text) : Nat := if headIs isSign (t.drop 1) then 2 else 1

theorem exponentPart_marked (mark : headIs isExponentMark t = true) :
    exponentPart t =
      if headIs isDigit (t.drop (markLength t)) then
        .ok (markLength t + digitsLength (t.drop (markLength t)))
      else .error (markLength t) := if_pos mark

theorem mark_covered (mark : headIs isExponentMark t = true) :
    Covered isNumeric (markLength t) t := by
  have one : Covered isNumeric 1 t :=
    (covered_one mark).mono fun _ h => isNumeric_of_glues (gluesToNumber_of_mark h)
  unfold markLength
  split
  next sign =>
    have two : Covered isNumeric 1 (t.drop 1) :=
      (covered_one sign).mono fun _ h => by rw [isNumeric, h, Bool.or_true]
    exact one.add two
  next => exact one

theorem exponentPart_scans : Scans exponentPart := by
  intro t n h
  by_cases mark : headIs isExponentMark t = true
  · rw [exponentPart_marked mark] at h
    have front := mark_covered mark
    split at h
    · obtain h | h := h <;> cases h
      exact front.add (digits_covered _)
    · obtain h | h := h <;> cases h
      exact front
  · have none : exponentPart t = .ok 0 := if_neg mark
    rw [none] at h
    obtain h | h := h <;> cases h
    exact covered_zero _ t

theorem wellFormedNumber_covered :
    (∀ kind n, wellFormedNumber t = .ok (kind, n) → Covered isNumeric n t) ∧
      ∀ n, wellFormedNumber t = .error n → Covered isNumeric n t := by
  unfold wellFormedNumber
  split
  next i hi => exact ⟨nofun, fun n h => by cases h; exact integerPart_scans t i (.inr hi)⟩
  next i hi =>
    have integer := integerPart_scans t i (.inl hi)
    split
    next f hf =>
      refine ⟨nofun, fun n h => ?_⟩
      cases h
      exact integer.add (fractionPart_scans _ f (.inr hf))
    next f hf =>
      have fraction := integer.add (fractionPart_scans _ f (.inl hf))
      split
      next e he =>
        refine ⟨nofun, fun n h => ?_⟩
        cases h
        exact fraction.add (exponentPart_scans _ e (.inr he))
      next e he =>
        have exponent := fraction.add (exponentPart_scans _ e (.inl he))
        split
        · exact ⟨nofun, fun n h => by cases h; exact exponent⟩
        · exact ⟨fun kind n h => by cases h; exact exponent, nofun⟩

theorem number_covered (t : Text) : Covered isNumeric (number t).2 t := by
  unfold number
  split
  next found h => exact wellFormedNumber_covered.1 found.1 found.2 h
  next n h =>
    have scanned := wellFormedNumber_covered.2 n h
    exact scanned.add ((covered_takeWhile gluesToNumber _).mono fun _ => isNumeric_of_glues)

/-! ## Offsets between characters -/

/-- No surrogate pair lies across the offset: what is in front of it is no first half, or what is
behind it no second one. -/
def Whole (t : Text) (n : Nat) : Prop :=
  (∃ m u, n = m + 1 ∧ t[m]? = some u ∧ isHighSurrogate u = false) ∨
    t[n]?.any isLowSurrogate = false

theorem Whole.not_splitsPair (h : Whole t n) : ¬t.SplitsPair n := by
  intro splits
  cases n with
  | zero => exact splits
  | succ n =>
    obtain ⟨high, low⟩ := splits
    obtain ⟨m, u, same, here, single⟩ | none := h
    · obtain rfl : n = m := Nat.succ.inj same
      rw [here, Option.any_some, single] at high
      cases high
    · rw [low] at none
      cases none

/-- The offset in a text with more in front. -/
theorem Whole.drop {k : Nat} (h : Whole (t.drop k) n) : Whole t (k + n) := by
  unfold Whole at h
  simp only [List.getElem?_drop] at h
  obtain ⟨m, u, rfl, here, single⟩ | none := h
  · exact .inl ⟨k + m, u, (Nat.add_assoc k m 1).symm, here, single⟩
  · exact .inr none

theorem Whole.cons (h : Whole t n) (u : CodeUnit) : Whole (u :: t) (1 + n) := Whole.drop h

theorem Whole.append (h : Whole t n) (front : Text) : Whole (front ++ t) (front.length + n) :=
  Whole.drop (by rwa [List.drop_left])

/-- Behind a stretch of units that are no halves of pairs. -/
theorem Covered.whole (h : Covered p n t) (pos : 0 < n)
    (single : ∀ u, p u = true → isHighSurrogate u = false) : Whole t n := by
  obtain ⟨m, rfl⟩ : ∃ m, n = m + 1 := ⟨n - 1, by omega⟩
  obtain ⟨u, here, hu⟩ := h.last
  exact .inl ⟨m, u, rfl, here, single u hu⟩

/-- Surrogates come behind all of the units below. -/
theorem notHigh_of_lt (h : u < 0xD800) : isHighSurrogate u = false := by
  have above : ¬(0xD800 : UInt16) ≤ u := UInt16.not_le.2 h
  rw [isHighSurrogate, decide_eq_false above, Bool.false_and]

theorem notHigh_of_nameContinue (h : isNameContinue u = true) : isHighSurrogate u = false := by
  simp only [isNameContinue, isNameStart, isDigit, Bool.or_eq_true, Bool.and_eq_true,
    decide_eq_true_eq, beq_iff_eq] at h
  have low : u ≤ unit 'z' := by
    obtain ((⟨-, le⟩ | ⟨-, le⟩) | rfl) | ⟨-, le⟩ := h
    · exact le
    · exact UInt16.le_trans le (by decide)
    · decide
    · exact UInt16.le_trans le (by decide)
  exact notHigh_of_lt (UInt16.lt_of_le_of_lt low (by decide))

theorem notHigh_of_numeric (h : isNumeric u = true) : isHighSurrogate u = false := by
  rcases Bool.or_eq_true_iff.1 h with h | h
  · rcases Bool.or_eq_true_iff.1 h with h | h
    · exact notHigh_of_nameContinue h
    · obtain rfl := beq_iff_eq.1 h
      decide
  · rcases Bool.or_eq_true_iff.1 h with h | h <;> obtain rfl := beq_iff_eq.1 h <;> decide

theorem notLow_of_lineEnd (h : isLineEnd u = true) : isLowSurrogate u = false := by
  rcases Bool.or_eq_true_iff.1 h with h | h <;> obtain rfl := beq_iff_eq.1 h <;> decide

/-! ## Strings -/

/-- A string that is not closed ends where its line does. -/
theorem stringTail_extent (t : Text) : (stringTail t).2 ≤ t.length ∧ Whole t (stringTail t).2 := by
  fun_induction stringTail t with
  | case1 => exact ⟨Nat.le_refl 0, .inr rfl⟩
  | case2 u t line => exact ⟨Nat.zero_le _, .inr (notLow_of_lineEnd line)⟩
  | case3 u line backslash => exact ⟨Nat.le_refl 1, .inr rfl⟩
  | case4 u line backslash v t ih =>
    obtain ⟨le, whole⟩ := ih
    refine ⟨?_, Whole.drop (k := 2) whole⟩
    simp only [lengthen, List.length_cons]
    omega
  | case5 u t line backslash quote =>
    obtain rfl := beq_iff_eq.1 quote
    exact ⟨Nat.succ_le_succ (Nat.zero_le _), .inl ⟨0, _, rfl, rfl, by decide⟩⟩
  | case6 u t line backslash quote ih =>
    obtain ⟨le, whole⟩ := ih
    refine ⟨?_, whole.cons u⟩
    simp only [lengthen, List.length_cons]
    omega

/-- A block string that is not closed ends with the text. -/
theorem blockStringTail_extent (t : Text) :
    (blockStringTail t).2 ≤ t.length ∧ Whole t (blockStringTail t).2 := by
  fun_induction blockStringTail t with
  | case1 => exact ⟨Nat.le_refl 0, .inr rfl⟩
  | case2 u t escaped ih =>
    have long : 4 ≤ (u :: t).length := (List.isPrefixOf_iff_prefix.1 escaped).length_le
    obtain ⟨le, whole⟩ := ih
    refine ⟨?_, Whole.drop (k := 4) whole⟩
    rw [List.length_drop] at le
    simp only [lengthen, List.length_cons] at long ⊢
    omega
  | case3 u t escaped closed =>
    obtain ⟨more, hmore⟩ := List.isPrefixOf_iff_prefix.1 closed
    rw [← hmore]
    exact ⟨by rw [List.length_append]; exact Nat.le_add_right 3 _,
      .inl ⟨2, _, rfl, rfl, by decide⟩⟩
  | case4 u t escaped closed ih =>
    obtain ⟨le, whole⟩ := ih
    refine ⟨?_, whole.cons u⟩
    simp only [lengthen, List.length_cons]
    omega

/-! ## Lexemes -/

/-- What numbers begin with. -/
def beginsNumber (u : CodeUnit) : Bool := u == unit '-' || isDigit u

/-- What the tokens of the language begin with, save the point. -/
def beginsToken (u : CodeUnit) : Bool :=
  punctuators.contains u || isNameStart u || beginsNumber u || u == unit '"'

/-- The lexeme at the head of a text, told by what stands there. -/
inductive LexemeAt (t : Text) : TokenKind × Nat → Prop where
  | dots (dots : ellipsis.isPrefixOf t = true) : LexemeAt t (.punctuator, 3)
  | mark (mark : headIs punctuators.contains t = true) : LexemeAt t (.punctuator, 1)
  | name (start : headIs isNameStart t = true) :
      LexemeAt t (.name, (t.takeWhile isNameContinue).length)
  | number (begins : headIs beginsNumber t = true) : LexemeAt t (number t)
  | block (fenced : fence.isPrefixOf t = true) :
      LexemeAt t (lengthen 3 (blockStringTail (t.drop 3)))
  | string (quote : headIs (· == unit '"') t = true) :
      LexemeAt t (lengthen 1 (stringTail (t.drop 1)))
  | unknown (dots : ¬ellipsis.isPrefixOf t = true) (other : headIs beginsToken t = false) :
      LexemeAt t (.error, unknownLength t)

theorem lexemeAt_lexeme (t : Text) : LexemeAt t (lexeme t) := by
  unfold lexeme
  split
  next dots => exact .dots dots
  next dots =>
  split
  next mark => exact .mark mark
  next mark =>
  split
  next start => exact .name start
  next start =>
  split
  next begins => exact .number begins
  next begins =>
  split
  next fenced => exact .block fenced
  next fenced =>
  split
  next quote => exact .string quote
  next quote =>
    refine .unknown dots ?_
    cases t with
    | nil => rfl
    | cons u t =>
      rw [Bool.not_eq_true] at mark start begins quote
      exact Bool.or_eq_false_iff.2 ⟨Bool.or_eq_false_iff.2 ⟨Bool.or_eq_false_iff.2
        ⟨mark, start⟩, begins⟩, quote⟩

/-- A character that starts no token is taken in whole. -/
theorem unknown_extent (u : CodeUnit) (t : Text) :
    unknownLength (u :: t) ≤ (u :: t).length ∧ Whole (u :: t) (unknownLength (u :: t)) := by
  cases t with
  | nil => exact ⟨Nat.le_refl 1, .inr rfl⟩
  | cons v t =>
    rw [unknownLength]
    split
    next pair =>
      refine ⟨by simp only [List.length_cons]; omega, .inl ⟨1, v, rfl, rfl, ?_⟩⟩
      -- the second half of a pair is no first half
      have low : 0xDC00 ≤ v := by
        have := (Bool.and_eq_true_iff.1 pair).2
        rw [isLowSurrogate, Bool.and_eq_true, decide_eq_true_eq] at this
        exact this.1
      rw [isHighSurrogate, decide_eq_false (UInt16.not_lt.2 low), Bool.and_false]
    next single =>
      refine ⟨Nat.succ_le_succ (Nat.zero_le _), ?_⟩
      cases high : isHighSurrogate u with
      | false => exact .inl ⟨0, u, rfl, rfl, high⟩
      | true =>
        refine .inr ?_
        rw [high, Bool.true_and] at single
        exact Bool.eq_false_iff.2 single

theorem notHigh_of_punctuator (h : punctuators.contains u = true) : isHighSurrogate u = false :=
  apart_of_all (by decide) (List.contains_iff_mem.1 h)

/-- A lexeme lies inside the text and cuts no surrogate pair. -/
theorem lexeme_extent (u : CodeUnit) (t : Text) :
    (lexeme (u :: t)).2 ≤ (u :: t).length ∧ Whole (u :: t) (lexeme (u :: t)).2 := by
  have pos := lexeme_pos u t
  have found := lexemeAt_lexeme (u :: t)
  generalize lexeme (u :: t) = lexeme at pos found ⊢
  cases found with
  | dots dots =>
    obtain ⟨more, hmore⟩ := List.isPrefixOf_iff_prefix.1 dots
    rw [← hmore]
    exact ⟨by rw [List.length_append]; exact Nat.le_add_right 3 _,
      .inl ⟨2, _, rfl, rfl, by decide⟩⟩
  | mark mark =>
    have one : Covered punctuators.contains 1 (u :: t) := covered_one mark
    exact ⟨one.le, one.whole Nat.one_pos fun _ => notHigh_of_punctuator⟩
  | name start =>
    have name := covered_takeWhile isNameContinue (u :: t)
    exact ⟨name.le, name.whole pos fun _ => notHigh_of_nameContinue⟩
  | number begins =>
    have number := number_covered (u :: t)
    exact ⟨number.le, number.whole pos fun _ => notHigh_of_numeric⟩
  | block fenced =>
    have long : 3 ≤ (u :: t).length := (List.isPrefixOf_iff_prefix.1 fenced).length_le
    obtain ⟨le, whole⟩ := blockStringTail_extent ((u :: t).drop 3)
    rw [List.length_drop] at le
    exact ⟨by simp only [lengthen]; omega, Whole.drop whole⟩
  | string quote =>
    obtain ⟨le, whole⟩ := stringTail_extent t
    exact ⟨by simp only [lengthen, List.length_cons, List.drop_one, List.tail_cons]; omega,
      whole.cons u⟩
  | unknown dots other => exact unknown_extent u t

theorem lexeme_le (u : CodeUnit) (t : Text) : (lexeme (u :: t)).2 ≤ (u :: t).length :=
  (lexeme_extent u t).1

theorem lexeme_whole (u : CodeUnit) (t : Text) : Whole (u :: t) (lexeme (u :: t)).2 :=
  (lexeme_extent u t).2

/-! ## Tokens in their text -/

/-- The text in front of the first lexeme, the lexeme and what follows it. -/
theorem cut_eq (h : t.drop (gapLength false t) = u :: rest) :
    t = t.take (gapLength false t) ++ ((u :: rest).take (lexeme (u :: rest)).2 ++
        (u :: rest).drop (lexeme (u :: rest)).2) ∧
      (t.take (gapLength false t)).length = gapLength false t ∧
      ((u :: rest).take (lexeme (u :: rest)).2).length = (lexeme (u :: rest)).2 := by
  have inside : gapLength false t ≤ t.length := by
    have := congrArg List.length h
    rw [List.length_drop, List.length_cons] at this
    omega
  refine ⟨?_, List.length_take_of_le inside, List.length_take_of_le (lexeme_le u rest)⟩
  rw [List.take_append_drop, ← h, List.take_append_drop]

/-- A token stands in its text at the place that its span tells, and is the lexeme there. -/
theorem lexFrom_mem {source : Int} {start : Nat} {text : Text} {t : Token}
    (h : t ∈ lexFrom source start text) :
    ∃ front behind : Text, text = front ++ (t.text ++ behind) ∧
      t.span = ⟨source, (start + front.length : Nat),
        (start + front.length + t.text.length : Nat)⟩ ∧
      lexeme (t.text ++ behind) = (t.kind, t.text.length) ∧
      gapLength false (t.text ++ behind) = 0 := by
  fun_induction lexFrom source start text with
  | case1 => simp at h
  | case2 start text u rest hd found cut next stop ih =>
    obtain ⟨split, gap, length⟩ := cut_eq hd
    rcases List.mem_cons.1 h with rfl | h
    · refine ⟨_, _, split, ?_, ?_, ?_⟩
      · rw [gap]
      · rw [List.take_append_drop, length]
      · have noGap := gapLength_drop false text
        rwa [List.take_append_drop, ← hd]
    · obtain ⟨front, behind, more, span, here⟩ := ih h
      refine ⟨text.take (gapLength false text) ++ (cut ++ front), behind, ?_, ?_, here⟩
      · rw [List.append_assoc, List.append_assoc, ← more]
        exact split
      · have place : start + (text.take (gapLength false text) ++ (cut ++ front)).length =
            stop + front.length := by
          rw [List.length_append, List.length_append, gap]
          omega
        rw [span, place]

theorem text_ne_nil_of_mem {source : Int} {start : Nat} {text : Text} {t : Token}
    (h : t ∈ lexFrom source start text) : t.text ≠ [] := by
  obtain ⟨front, behind, -, -, here, -⟩ := lexFrom_mem h
  intro none
  rw [none, List.nil_append] at here
  cases behind with
  | nil => cases congrArg Prod.snd here
  | cons u rest =>
    have pos := lexeme_pos u rest
    rw [here] at pos
    exact Nat.lt_irrefl 0 pos

end Lexer

end GraphQL
