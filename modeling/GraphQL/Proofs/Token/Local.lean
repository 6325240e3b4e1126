import GraphQL.Token.Lexer

/-! # What a token is does not depend on what follows it

A token cut out of one text and put before another is found there again, as long as nothing follows
that would go on with it. Numbers and names end where a unit stands that they cannot hold, strings
by their own last quotes.

* `Stops` says that nothing at the head of a text goes on with what is in front of it,
* `number_local`, `blockStringTail_local` and `stringTail_local` are about the parts of the lexer,
* `lexeme_local` is about all of it,
* `lexeme_ends` and `lexeme_append` are about a lexeme in the text that it was found in. -/

namespace GraphQL.Lexer

set_option autoImplicit false

variable {t rest : Text} {u : CodeUnit}

/-! ## What may follow a token -/

/-- Units that could go on with a name, a number or an empty string in front of them. -/
def continues (u : CodeUnit) : Bool := gluesToNumber u || u == unit '"'

/-- Nothing at the head of the text goes on with what is in front of it. -/
def Stops (rest : Text) : Prop := headIs continues rest = false

instance : DecidablePred Stops := fun rest =>
  inferInstanceAs (Decidable (headIs continues rest = false))

theorem stops_nil : Stops [] := rfl

theorem Stops.append (h : Stops t) (hr : Stops rest) : Stops (t ++ rest) := by
  cases t with
  | nil => exact hr
  | cons u t => exact h

theorem headIs_false {p q : CodeUnit → Bool} (sub : ∀ u, p u = true → q u = true)
    (h : headIs q t = false) : headIs p t = false := by
  cases t with
  | nil => rfl
  | cons u t =>
    refine Bool.eq_false_iff.2 fun hp => ?_
    exact Bool.false_ne_true (h.symm.trans (sub u hp))

theorem Stops.head {p : CodeUnit → Bool} (h : Stops rest)
    (sub : ∀ u, p u = true → continues u = true) : headIs p rest = false := headIs_false sub h

/-- Nothing at the head of the text goes on with a lexeme of the kind and length in front of it. Of
the strings only the empty one can be gone on with: a third quote makes it a fence. -/
def Ends : TokenKind → Nat → Text → Prop
  | .name, _, rest => headIs isNameContinue rest = false
  | .int, _, rest => headIs gluesToNumber rest = false
  | .float, _, rest => headIs gluesToNumber rest = false
  | .string, n, rest => n = 2 → headIs (· == unit '"') rest = false
  | .punctuator, _, _ => True
  | .error, _, _ => True

theorem ends_of_stops {kind : TokenKind} {n : Nat} (h : kind ≠ .punctuator → Stops rest) :
    Ends kind n rest := by
  cases kind with
  | name =>
    exact (h (by decide)).head
      fun u hu => by rw [continues, gluesToNumber, hu, Bool.true_or, Bool.true_or]
  | int => exact (h (by decide)).head fun u hu => by rw [continues, hu, Bool.true_or]
  | float => exact (h (by decide)).head fun u hu => by rw [continues, hu, Bool.true_or]
  | string => exact fun _ => (h (by decide)).head fun u hu => by rw [continues, hu, Bool.or_true]
  | punctuator => trivial
  | error => trivial

theorem headIs_append_false {p : CodeUnit → Bool} (ht : headIs p t = false)
    (hr : headIs p rest = false) : headIs p (t ++ rest) = false := by
  cases t with
  | nil => exact hr
  | cons u t => exact ht

theorem Ends.append {kind : TokenKind} {n : Nat} (h : Ends kind n t) (hr : Ends kind n rest) :
    Ends kind n (t ++ rest) := by
  cases kind with
  | name => exact headIs_append_false h hr
  | int => exact headIs_append_false h hr
  | float => exact headIs_append_false h hr
  | string => exact fun two => headIs_append_false (h two) (hr two)
  | punctuator => trivial
  | error => trivial

/-! ## Prefixes of a text -/

theorem isPrefixOf_take_append {p : Text} {n : Nat} (hp : p.length ≤ n) (hn : n ≤ t.length)
    (rest : Text) : p.isPrefixOf (t.take n ++ rest) = p.isPrefixOf t := by
  rw [Bool.eq_iff_iff, List.isPrefixOf_iff_prefix, List.isPrefixOf_iff_prefix]
  have short : p.length ≤ (t.take n).length := by rw [List.length_take]; omega
  constructor
  · intro h
    exact (List.prefix_of_prefix_length_le h (List.prefix_append _ _) short).trans
      (List.take_prefix _ _)
  · intro h
    exact (List.prefix_of_prefix_length_le h (List.take_prefix _ _) short).trans
      (List.prefix_append _ _)

theorem takeWhile_append_stop {p : CodeUnit → Bool} (ht : ∀ u ∈ t, p u = true)
    (hr : headIs p rest = false) : (t ++ rest).takeWhile p = t := by
  induction t with
  | nil =>
    cases rest with
    | nil => rfl
    | cons u rest => exact List.takeWhile_cons_of_neg (Bool.eq_false_iff.1 hr)
  | cons u t ih =>
    rw [List.forall_mem_cons] at ht
    rw [List.cons_append, List.takeWhile_cons_of_pos ht.1, ih ht.2]

theorem take_takeWhile (p : CodeUnit → Bool) (t : Text) :
    t.take (t.takeWhile p).length = t.takeWhile p :=
  (List.prefix_iff_eq_take.1 (List.takeWhile_prefix p)).symm

/-! ## Numbers -/

/-- What a part of a number reads is read again where nothing that `p` accepts follows. -/
def Local (part : Text → Except Nat Nat) (p : CodeUnit → Bool) : Prop :=
  ∀ (t : Text) (n : Nat) (rest : Text), part t = .ok n → headIs p rest = false →
    n ≤ t.length ∧ part (t.take n ++ rest) = .ok n

theorem headIs_take_append {n : Nat} (pos : 0 < n) (p : CodeUnit → Bool) (some : t ≠ [])
    (rest : Text) : headIs p (t.take n ++ rest) = headIs p t := by
  obtain ⟨m, rfl⟩ : ∃ m, n = m + 1 := ⟨n - 1, by omega⟩
  cases t with
  | nil => exact absurd rfl some
  | cons u t => rfl

theorem ne_nil_of_headIs {p : CodeUnit → Bool} (h : headIs p t = true) : t ≠ [] := by
  rintro rfl
  cases h

theorem digitsLength_le (t : Text) : digitsLength t ≤ t.length :=
  (List.takeWhile_prefix isDigit).length_le

theorem digitsLength_pos (h : headIs isDigit t = true) : 0 < digitsLength t := by
  cases t with
  | nil => cases h
  | cons u t =>
    have hu : isDigit u = true := h
    rw [digitsLength, List.takeWhile_cons_of_pos hu]
    exact Nat.zero_lt_succ _

theorem headIs_digits (digit : headIs isDigit t = true) (p : CodeUnit → Bool) (rest : Text) :
    headIs p (t.take (digitsLength t) ++ rest) = headIs p t :=
  headIs_take_append (digitsLength_pos digit) p (ne_nil_of_headIs digit) rest

theorem digitsLength_local (t : Text) (hr : headIs isDigit rest = false) :
    digitsLength (t.take (digitsLength t) ++ rest) = digitsLength t := by
  unfold digitsLength
  rw [take_takeWhile, takeWhile_append_stop (List.all_eq_true.1 List.all_takeWhile) hr]

theorem drop_take_append {n : Nat} (h : n ≤ t.length) (rest : Text) :
    (t.take n ++ rest).drop n = rest := List.drop_left' (List.length_take_of_le h)

theorem drop_take_add_append {k : Nat} (h : k ≤ t.length) (n : Nat) (rest : Text) :
    (t.take (k + n) ++ rest).drop k = (t.drop k).take n ++ rest := by
  rw [List.take_add, List.append_assoc, drop_take_append h]

/-- Digits behind the first `k` units are as many, whatever follows that is no digit. -/
theorem digits_behind {k : Nat} (digit : headIs isDigit (t.drop k) = true)
    (hr : headIs isDigit rest = false) :
    k + digitsLength (t.drop k) ≤ t.length ∧
      headIs isDigit ((t.take (k + digitsLength (t.drop k)) ++ rest).drop k) = true ∧
      digitsLength ((t.take (k + digitsLength (t.drop k)) ++ rest).drop k) =
        digitsLength (t.drop k) := by
  have inside : k < t.length := Nat.lt_of_not_le fun out =>
    ne_nil_of_headIs digit (List.drop_eq_nil_of_le out)
  have short := digitsLength_le (t.drop k)
  rw [List.length_drop] at short
  rw [drop_take_add_append (Nat.le_of_lt inside), headIs_digits digit]
  exact ⟨by omega, digit, digitsLength_local _ hr⟩

theorem naturalPart_local : Local naturalPart isDigit := by
  intro t n rest h hr
  unfold naturalPart at h
  split at h
  next zero =>
    split at h
    · cases h
    · cases h
      have some := ne_nil_of_headIs zero
      refine ⟨List.length_pos_iff.2 some, ?_⟩
      have single : (t.take 1 ++ rest).drop 1 = rest := by
        cases t with
        | nil => exact absurd rfl some
        | cons u t => rfl
      rw [naturalPart, headIs_take_append Nat.one_pos _ some, if_pos zero, single, hr,
        if_neg Bool.false_ne_true]
  next zero =>
    split at h
    next digit =>
      cases h
      refine ⟨digitsLength_le t, ?_⟩
      rw [naturalPart, headIs_digits digit, headIs_digits digit, if_neg zero, if_pos digit,
        digitsLength_local t hr]
    next => cases h

theorem integerPart_local : Local integerPart isDigit := by
  intro t n rest h hr
  unfold integerPart at h
  split at h
  next sign =>
    split at h
    next m hm =>
      cases h
      cases t with
      | nil => cases sign
      | cons u t =>
        obtain ⟨short, again⟩ := naturalPart_local t m rest hm hr
        refine ⟨Nat.succ_le_succ short, ?_⟩
        have sign' : headIs (· == unit '-') (u :: (t.take m ++ rest)) = true := sign
        rw [List.take_succ_cons, List.cons_append, integerPart, if_pos sign', List.drop_one,
          List.tail_cons, again]
    next => cases h
  next sign =>
    obtain ⟨short, again⟩ := naturalPart_local t n rest h hr
    refine ⟨short, ?_⟩
    rw [integerPart, if_neg ?_, again]
    rcases Nat.eq_zero_or_pos n with rfl | pos
    · -- a text of no units is no numeral
      unfold naturalPart at h
      split at h
      · split at h <;> cases h
      · split at h
        next digit =>
          have := digitsLength_pos digit
          injection h
          omega
        next => cases h
    · cases t with
      | nil =>
        have : n = 0 := Nat.le_zero.1 short
        omega
      | cons u t => rwa [headIs_take_append pos _ (List.cons_ne_nil u t)]

/-- What the fraction must not be followed by: another digit, or a point where it is lacking. -/
def extendsFraction (u : CodeUnit) : Bool := isDigit u || u == unit '.'

/-- The letters that an exponent begins with. -/
def isExponentMark (u : CodeUnit) : Bool := u == unit 'e' || u == unit 'E'

def extendsExponent (u : CodeUnit) : Bool := isDigit u || isExponentMark u

theorem fractionPart_local : Local fractionPart extendsFraction := by
  intro t n rest h hr
  have noDigit : headIs isDigit rest = false :=
    headIs_false (fun u hu => by rw [extendsFraction, hu, Bool.true_or]) hr
  have noPoint : headIs (· == unit '.') rest = false :=
    headIs_false (fun u hu => by rw [extendsFraction, hu, Bool.or_true]) hr
  unfold fractionPart at h
  split at h
  next point =>
    split at h
    next digit =>
      cases h
      obtain ⟨short, digit', again⟩ := digits_behind digit noDigit
      refine ⟨short, ?_⟩
      rw [fractionPart, headIs_take_append (Nat.add_pos_left Nat.one_pos _) _
        (ne_nil_of_headIs point), if_pos point, if_pos digit', again]
    next => cases h
  next =>
    cases h
    exact ⟨Nat.zero_le _, by rw [List.take_zero, List.nil_append, fractionPart, noPoint]; rfl⟩

theorem exponentPart_local : Local exponentPart extendsExponent := by
  intro t n rest h hr
  have noDigit : headIs isDigit rest = false :=
    headIs_false (fun u hu => by rw [extendsExponent, hu, Bool.true_or]) hr
  have noMark : headIs (fun u => u == unit 'e' || u == unit 'E') rest = false :=
    headIs_false (fun u hu => by rw [extendsExponent, isExponentMark, hu, Bool.or_true]) hr
  unfold exponentPart at h
  split at h
  next mark =>
    extract_lets sign at h
    split at h
    next digit =>
      cases h
      obtain ⟨short, digit', again⟩ := digits_behind digit noDigit
      refine ⟨short, ?_⟩
      have pos : 0 < digitsLength (t.drop sign) := digitsLength_pos digit
      -- what tells whether there is a sign is taken as well
      obtain ⟨k, hk⟩ : ∃ k, sign = 1 + k := by
        unfold sign
        split
        · exact ⟨1, rfl⟩
        · exact ⟨0, rfl⟩
      have second : t.drop 1 ≠ [] := fun none => by
        rw [hk, ← List.drop_drop, none, List.drop_nil] at digit
        cases digit
      have same (p : CodeUnit → Bool) :
          headIs p ((t.take (sign + digitsLength (t.drop sign)) ++ rest).drop 1) =
            headIs p (t.drop 1) := by
        have some : 1 ≤ t.length := List.length_pos_iff.2 (ne_nil_of_headIs mark)
        rw [hk, Nat.add_assoc, drop_take_add_append some, ← hk]
        exact headIs_take_append (Nat.add_pos_right k pos) p second rest
      rw [exponentPart, headIs_take_append (Nat.add_pos_right _ pos) _ (ne_nil_of_headIs mark),
        if_pos mark, same]
      show (if headIs isDigit (List.drop sign _) = true then _ else _) = _
      rw [if_pos digit', again]
    next => cases h
  next =>
    cases h
    exact ⟨Nat.zero_le _, by rw [List.take_zero, List.nil_append, exponentPart, noMark]; rfl⟩

/-- A part that is there begins with what `mark` accepts. -/
theorem headIs_part {n : Nat} {mark p : CodeUnit → Bool} (h : n = 0 ∨ headIs mark t = true)
    (apart : ∀ u, mark u = true → p u = false) (hr : headIs p rest = false) :
    headIs p (t.take n ++ rest) = false := by
  rcases Nat.eq_zero_or_pos n with rfl | pos
  · exact hr
  · obtain begins := h.resolve_left (Nat.pos_iff_ne_zero.1 pos)
    rw [headIs_take_append pos _ (ne_nil_of_headIs begins)]
    cases t with
    | nil => cases begins
    | cons u t => exact apart u begins

theorem fractionPart_head {n : Nat} (h : fractionPart t = .ok n) :
    n = 0 ∨ headIs (· == unit '.') t = true := by
  unfold fractionPart at h
  split at h
  next point => exact .inr point
  next => exact .inl (Except.ok.inj h).symm

theorem exponentPart_head {n : Nat} (h : exponentPart t = .ok n) :
    n = 0 ∨ headIs isExponentMark t = true := by
  unfold exponentPart at h
  split at h
  next mark => exact .inr mark
  next => exact .inl (Except.ok.inj h).symm

theorem gluesToNumber_of_digit (h : isDigit u = true) : gluesToNumber u = true := by
  rw [gluesToNumber, isNameContinue, h, Bool.or_true, Bool.true_or]

theorem gluesToNumber_of_mark (h : isExponentMark u = true) : gluesToNumber u = true := by
  simp only [isExponentMark, Bool.or_eq_true, beq_iff_eq] at h
  rcases h with rfl | rfl <;> decide

/-- A well-formed number is its parts, one behind the other, and nothing that it runs into. -/
theorem wellFormedNumber_eq_ok {kind : TokenKind} {n : Nat} :
    wellFormedNumber t = .ok (kind, n) ↔
      ∃ i f e, integerPart t = .ok i ∧ fractionPart (t.drop i) = .ok f ∧
        exponentPart (t.drop (i + f)) = .ok e ∧ headIs gluesToNumber (t.drop (i + f + e)) = false ∧
        (if f + e = 0 then TokenKind.int else .float) = kind ∧ i + f + e = n := by
  constructor
  · intro h
    unfold wellFormedNumber at h
    split at h
    · cases h
    next i hi =>
      split at h
      · cases h
      next f hf =>
        split at h
        · cases h
        next e he =>
          split at h
          · cases h
          next free =>
            injection h with h
            injection h with kind length
            exact ⟨i, f, e, hi, hf, he, Bool.eq_false_iff.2 free, kind, length⟩
  · rintro ⟨i, f, e, hi, hf, he, free, rfl, rfl⟩
    simp only [wellFormedNumber, hi, hf, he, free, Bool.false_eq_true, if_false]

theorem extendsFraction_of_mark (h : isExponentMark u = true) : extendsFraction u = false := by
  simp only [isExponentMark, Bool.or_eq_true, beq_iff_eq] at h
  rcases h with rfl | rfl <;> decide

theorem gluesToNumber_of_extendsFraction (h : extendsFraction u = true) :
    gluesToNumber u = true := by
  rcases Bool.or_eq_true_iff.1 h with h | h
  · exact gluesToNumber_of_digit h
  · rw [gluesToNumber, h, Bool.or_true]

theorem gluesToNumber_of_extendsExponent (h : extendsExponent u = true) : gluesToNumber u = true :=
  (Bool.or_eq_true_iff.1 h).elim gluesToNumber_of_digit gluesToNumber_of_mark

/-- A well-formed number is read again where no unit follows that it must not run into. -/
theorem number_local {kind : TokenKind} {n : Nat} (h : wellFormedNumber t = .ok (kind, n))
    (hr : headIs gluesToNumber rest = false) :
    n ≤ t.length ∧ wellFormedNumber (t.take n ++ rest) = .ok (kind, n) := by
  obtain ⟨i, f, e, hi, hf, he, -, kind, rfl⟩ := wellFormedNumber_eq_ok.1 h
  -- the exponent is followed by `rest`, the fraction by the exponent, and so on
  obtain ⟨shortE, againE⟩ := exponentPart_local _ e rest he
    (headIs_false (fun _ => gluesToNumber_of_extendsExponent) hr)
  have behindF : headIs extendsFraction ((t.drop (i + f)).take e ++ rest) = false :=
    headIs_part (exponentPart_head he) (fun _ => extendsFraction_of_mark)
      (headIs_false (fun _ => gluesToNumber_of_extendsFraction) hr)
  obtain ⟨shortF, againF⟩ := fractionPart_local _ f _ hf behindF
  have behindI :
      headIs isDigit ((t.drop i).take f ++ ((t.drop (i + f)).take e ++ rest)) = false := by
    refine headIs_part (fractionPart_head hf) (fun u hu => ?_)
      (headIs_false (fun u hu => by rw [extendsFraction, hu, Bool.true_or]) behindF)
    obtain rfl : u = unit '.' := beq_iff_eq.1 hu
    decide
  obtain ⟨shortI, againI⟩ := integerPart_local _ i _ hi behindI
  rw [List.length_drop] at shortE shortF
  have short : i + f + e ≤ t.length := by omega
  have cut : t.take (i + f + e) ++ rest =
      t.take i ++ ((t.drop i).take f ++ ((t.drop (i + f)).take e ++ rest)) := by
    rw [List.take_add, List.take_add, List.append_assoc, List.append_assoc]
  have dropI : (t.take (i + f + e) ++ rest).drop i =
      (t.drop i).take f ++ ((t.drop (i + f)).take e ++ rest) := by
    rw [cut, drop_take_append shortI]
  have dropF : (t.take (i + f + e) ++ rest).drop (i + f) = (t.drop (i + f)).take e ++ rest := by
    rw [← List.drop_drop, dropI, drop_take_append (by rw [List.length_drop]; omega)]
  have dropE : (t.take (i + f + e) ++ rest).drop (i + f + e) = rest := drop_take_append short rest
  refine ⟨short, wellFormedNumber_eq_ok.2 ⟨i, f, e, ?_, ?_, ?_, ?_, kind, rfl⟩⟩
  · rw [cut, againI]
  · rw [dropI, againF]
  · rw [dropF, againE]
  · rw [dropE, hr]

/-! ## Strings -/

theorem lengthen_eq {k n : Nat} {kind : TokenKind} {found : TokenKind × Nat}
    (h : lengthen k found = (kind, n)) : ∃ m, found = (kind, m) ∧ n = k + m := by
  obtain ⟨kind', m⟩ := found
  injection h with hk hn
  exact ⟨m, by rw [← hk], hn.symm⟩

theorem blockStringTail_escaped (t : Text) :
    blockStringTail (escapedFence ++ t) = lengthen 4 (blockStringTail t) := by
  have escaped : escapedFence.isPrefixOf (unit '\\' :: (fence ++ t)) = true :=
    List.isPrefixOf_iff_prefix.2 (List.prefix_append escapedFence t)
  show blockStringTail (unit '\\' :: (fence ++ t)) = _
  rw [blockStringTail, if_pos escaped]
  rfl

theorem blockStringTail_fence (t : Text) : blockStringTail (fence ++ t) = (.string, 3) := by
  have closed : fence.isPrefixOf (unit '"' :: unit '"' :: unit '"' :: t) = true :=
    List.isPrefixOf_iff_prefix.2 (List.prefix_append fence t)
  show blockStringTail (unit '"' :: unit '"' :: unit '"' :: t) = _
  rw [blockStringTail, if_neg ?_, if_pos closed]
  intro h
  exact absurd (List.cons_prefix_cons.1 (List.isPrefixOf_iff_prefix.1 h)).1 (by decide)

/-- A block string ends with its first fence, whatever follows. -/
theorem blockStringTail_local {n : Nat} (h : blockStringTail t = (.string, n)) (rest : Text) :
    3 ≤ n ∧ n ≤ t.length ∧ blockStringTail (t.take n ++ rest) = (.string, n) := by
  fun_induction blockStringTail t generalizing n with
  | case1 => cases h
  | case2 u t escaped ih =>
    obtain ⟨m, hm, rfl⟩ := lengthen_eq h
    obtain ⟨more, hmore⟩ := List.isPrefixOf_iff_prefix.1 escaped
    have behind : t.drop 3 = more := by
      have := congrArg (List.drop 4) hmore
      exact this.symm
    obtain ⟨long, short, again⟩ := ih hm
    rw [behind] at short again
    rw [← hmore]
    refine ⟨by omega, by rw [List.length_append]; exact Nat.add_le_add_left short 4, ?_⟩
    have cut : (escapedFence ++ more).take (4 + m) = escapedFence ++ more.take m :=
      @List.take_length_add_append _ escapedFence more m
    rw [cut, List.append_assoc, blockStringTail_escaped, again]
    rfl
  | case3 u t escaped closed =>
    cases h
    obtain ⟨more, hmore⟩ := List.isPrefixOf_iff_prefix.1 closed
    rw [← hmore]
    refine ⟨Nat.le_refl 3, by rw [List.length_append]; exact Nat.le_add_right 3 _, ?_⟩
    have cut : (fence ++ more).take 3 = fence := rfl
    rw [cut, blockStringTail_fence]
  | case4 u t escaped closed ih =>
    obtain ⟨m, hm, rfl⟩ := lengthen_eq h
    obtain ⟨long, short, again⟩ := ih hm
    have short' : 1 + m ≤ (u :: t).length := by rw [List.length_cons]; omega
    refine ⟨by omega, short', ?_⟩
    -- the tail holds a fence, so that the next four units are its own
    have escaped' := isPrefixOf_take_append (p := escapedFence) (n := 1 + m)
      (by show 4 ≤ 1 + m; omega) short' rest
    have closed' := isPrefixOf_take_append (p := fence) (n := 1 + m)
      (by show 3 ≤ 1 + m; omega) short' rest
    rw [Nat.add_comm 1 m, List.take_succ_cons, List.cons_append] at escaped' closed' ⊢
    rw [blockStringTail, escaped', closed', if_neg escaped, if_neg closed, again, lengthen,
      Nat.add_comm]

/-- A string ends with its first quote that is not escaped, whatever follows. -/
theorem stringTail_local {n : Nat} (h : stringTail t = (.string, n)) (rest : Text) :
    0 < n ∧ n ≤ t.length ∧ stringTail (t.take n ++ rest) = (.string, n) := by
  fun_induction stringTail t generalizing n with
  | case1 => cases h
  | case2 => cases h
  | case3 => cases h
  | case4 u line backslash v t ih =>
    obtain ⟨m, hm, rfl⟩ := lengthen_eq h
    obtain ⟨pos, short, again⟩ := ih hm
    refine ⟨by omega, by simp only [List.length_cons]; omega, ?_⟩
    rw [Nat.add_comm 2 m, List.take_succ_cons, List.take_succ_cons, List.cons_append,
      List.cons_append, stringTail, if_neg line, if_pos backslash, again, lengthen, Nat.add_comm]
  | case5 u t line backslash quote =>
    cases h
    refine ⟨Nat.one_pos, Nat.succ_le_succ (Nat.zero_le _), ?_⟩
    rw [List.take_succ_cons, List.take_zero, List.cons_append, stringTail.eq_def]
    simp only [if_neg line, if_neg backslash, if_pos quote]
  | case6 u t line backslash quote ih =>
    obtain ⟨m, hm, rfl⟩ := lengthen_eq h
    obtain ⟨pos, short, again⟩ := ih hm
    refine ⟨by omega, by simp only [List.length_cons]; omega, ?_⟩
    rw [Nat.add_comm 1 m, List.take_succ_cons, List.cons_append, stringTail.eq_def]
    simp only [if_neg line, if_neg backslash, if_neg quote, again, lengthen]
    rw [Nat.add_comm]

/-! ## One lexeme -/

/-- A prefix decides about the head. -/
theorem not_isPrefixOf {v : CodeUnit} {p : Text} {q : CodeUnit → Bool} (hq : headIs q t = true)
    (apart : q v = false) : ¬ (v :: p).isPrefixOf t = true := by
  intro h
  obtain ⟨more, rfl⟩ := List.isPrefixOf_iff_prefix.1 h
  exact Bool.false_ne_true (apart.symm.trans hq)

theorem blockStringTail_kind (t : Text) :
    (blockStringTail t).1 = .string ∨ (blockStringTail t).1 = .error := by
  fun_induction blockStringTail t with
  | case1 => exact .inr rfl
  | case2 u t escaped ih => exact ih
  | case3 => exact .inl rfl
  | case4 u t escaped closed ih => exact ih

theorem stringTail_kind (t : Text) : (stringTail t).1 = .string ∨ (stringTail t).1 = .error := by
  fun_induction stringTail t with
  | case1 => exact .inr rfl
  | case2 => exact .inr rfl
  | case3 => exact .inr rfl
  | case4 u line backslash v t ih => exact ih
  | case5 => exact .inl rfl
  | case6 u t line backslash quote ih => exact ih

theorem headIs_quote_of_fence (h : fence.isPrefixOf t = true) : headIs (· == unit '"') t = true := by
  obtain ⟨more, rfl⟩ := List.isPrefixOf_iff_prefix.1 h
  rfl

theorem lexeme_quote (h : headIs (· == unit '"') t = true) :
    lexeme t =
      if fence.isPrefixOf t then lengthen 3 (blockStringTail (t.drop 3))
      else lengthen 1 (stringTail (t.drop 1)) := by
  cases t with
  | nil => cases h
  | cons u t =>
    obtain rfl : u = unit '"' := beq_iff_eq.1 h
    have noEllipsis : ¬ ellipsis.isPrefixOf (unit '"' :: t) = true := not_isPrefixOf h (by decide)
    rw [lexeme, if_neg noEllipsis]
    rfl

/-- A string is read again, unless it is empty and another quote makes it a fence. -/
theorem quoted_local {n : Nat} (quote : headIs (· == unit '"') t = true)
    (h : lexeme t = (.string, n)) (hr : n = 2 → headIs (· == unit '"') rest = false) :
    n ≤ t.length ∧ lexeme (t.take n ++ rest) = (.string, n) := by
  rw [lexeme_quote quote] at h
  split at h
  next fenced =>
    obtain ⟨m, hm, rfl⟩ := lengthen_eq h
    obtain ⟨more, rfl⟩ := List.isPrefixOf_iff_prefix.1 fenced
    obtain ⟨-, short, again⟩ := blockStringTail_local hm rest
    have cut : (fence ++ more).take (3 + m) = fence ++ more.take m :=
      @List.take_length_add_append _ fence more m
    refine ⟨by rw [List.length_append]; exact Nat.add_le_add_left short 3, ?_⟩
    have fenced' : fence.isPrefixOf (fence ++ (more.take m ++ rest)) = true :=
      List.isPrefixOf_iff_prefix.2 (List.prefix_append _ _)
    rw [cut, List.append_assoc, lexeme_quote rfl, if_pos fenced']
    exact congrArg (lengthen 3) again
  next fenced =>
    obtain ⟨m, hm, rfl⟩ := lengthen_eq h
    cases t with
    | nil => cases quote
    | cons u t =>
      obtain rfl : u = unit '"' := beq_iff_eq.1 quote
      obtain ⟨pos, short, again⟩ := stringTail_local hm rest
      rw [List.drop_one, List.tail_cons] at short again hm
      have short' : 1 + m ≤ (unit '"' :: t).length := by rw [List.length_cons]; omega
      refine ⟨short', ?_⟩
      have fenced' : ¬ fence.isPrefixOf ((unit '"' :: t).take (1 + m) ++ rest) = true := by
        by_cases long : 2 ≤ m
        · rwa [isPrefixOf_take_append (by show 3 ≤ 1 + m; omega) short']
        · -- the empty string: a third quote would have to follow it
          obtain rfl : m = 1 := by omega
          cases t with
          | nil => exact absurd short (by decide)
          | cons v t =>
            intro h
            obtain ⟨more, hmore⟩ := List.isPrefixOf_iff_prefix.1 h
            have rest_eq : rest = unit '"' :: more := (congrArg (List.drop 2) hmore).symm
            have third : headIs (· == unit '"') rest = true := by rw [rest_eq]; rfl
            rw [hr rfl] at third
            cases third
      rw [lexeme_quote (by rw [headIs_take_append (by omega) _ (List.cons_ne_nil _ _)]; rfl),
        if_neg fenced', Nat.add_comm 1 m, List.take_succ_cons, List.cons_append, List.drop_one,
        List.tail_cons, again, lengthen, Nat.add_comm]

theorem lexeme_quote_kind {kind : TokenKind} {n : Nat} (quote : headIs (· == unit '"') t = true)
    (h : lexeme t = (kind, n)) (ok : kind ≠ .error) : kind = .string := by
  rw [lexeme_quote quote] at h
  split at h
  · obtain ⟨m, hm, -⟩ := lengthen_eq h
    have tail := blockStringTail_kind (t.drop 3)
    rw [hm] at tail
    exact tail.resolve_right ok
  · obtain ⟨m, hm, -⟩ := lengthen_eq h
    have tail := stringTail_kind (t.drop 1)
    rw [hm] at tail
    exact tail.resolve_right ok

theorem number_eq_ok {kind : TokenKind} {n : Nat} (h : number t = (kind, n)) (ok : kind ≠ .error) :
    wellFormedNumber t = .ok (kind, n) := by
  unfold number at h
  split at h
  next found hw => rw [hw, h]
  next => exact absurd (congrArg Prod.fst h).symm ok

theorem Ends.number {kind : TokenKind} {n : Nat} (h : Ends kind n rest)
    (hw : wellFormedNumber t = .ok (kind, n)) : headIs gluesToNumber rest = false := by
  obtain ⟨i, f, e, -, -, -, -, rfl, -⟩ := wellFormedNumber_eq_ok.1 hw
  split at h <;> exact h

/-- What a lexeme is does not depend on what follows it, unless that goes on with it. -/
theorem lexeme_local {kind : TokenKind} {n : Nat} (h : lexeme t = (kind, n)) (ok : kind ≠ .error)
    (hr : Ends kind n rest) :
    n ≤ t.length ∧ lexeme (t.take n ++ rest) = (kind, n) := by
  by_cases quote : headIs (· == unit '"') t = true
  · obtain rfl : kind = .string := lexeme_quote_kind quote h ok
    exact quoted_local quote h hr
  have some : t ≠ [] := by
    rintro rfl
    exact ok (congrArg Prod.fst h).symm
  have pos : 0 < n := by
    cases t with
    | nil => exact absurd rfl some
    | cons u t => simpa [h] using lexeme_pos u t
  have same (p : CodeUnit → Bool) : headIs p (t.take n ++ rest) = headIs p t :=
    headIs_take_append pos p some rest
  have apart {q : CodeUnit → Bool} (hq : headIs q t = true) (dot : q (unit '.') = false) :
      ¬ ellipsis.isPrefixOf (t.take n ++ rest) = true :=
    not_isPrefixOf (q := q) (by rw [same]; exact hq) dot
  unfold lexeme at h
  split at h
  next dots =>
    cases h
    have short : 3 ≤ t.length := (List.isPrefixOf_iff_prefix.1 dots).length_le
    exact ⟨short, by rw [lexeme, isPrefixOf_take_append (Nat.le_refl 3) short, if_pos dots]⟩
  split at h
  next mark =>
    cases h
    refine ⟨List.length_pos_iff.2 some, ?_⟩
    rw [lexeme, if_neg (apart mark (by decide)), same, if_pos mark]
  next mark =>
  split at h
  next start =>
    cases h
    refine ⟨(List.takeWhile_prefix _).length_le, ?_⟩
    rw [lexeme, if_neg (apart start (by decide)), same, if_neg mark, same, if_pos start,
      take_takeWhile, takeWhile_append_stop (List.all_eq_true.1 List.all_takeWhile) hr]
  next start =>
  split at h
  next numeral =>
    have found := number_eq_ok h ok
    obtain ⟨short, again⟩ := number_local found (hr.number found)
    refine ⟨short, ?_⟩
    rw [lexeme, if_neg (apart numeral (by decide)), same, if_neg mark, same, if_neg start, same,
      if_pos numeral, number, again]
  next numeral =>
  split at h
  next fenced => exact absurd (headIs_quote_of_fence fenced) quote
  next => exact absurd (congrArg Prod.fst h).symm ok

/-! ## Lexemes are as long as they can be -/

theorem headIs_drop_takeWhile (p : CodeUnit → Bool) (t : Text) :
    headIs p (t.drop (t.takeWhile p).length) = false := by
  induction t with
  | nil => rfl
  | cons u t ih =>
    cases hu : p u with
    | true => rwa [List.takeWhile_cons_of_pos hu, List.length_cons, List.drop_succ_cons]
    | false => rwa [List.takeWhile_cons_of_neg (Bool.eq_false_iff.1 hu)]

/-- A string that is closed by the next unit is closed by a quote. -/
theorem stringTail_one (h : stringTail t = (.string, 1)) : ∃ more, t = unit '"' :: more := by
  fun_induction stringTail t with
  | case1 => cases h
  | case2 => cases h
  | case3 => cases h
  | case4 u line backslash v t =>
    obtain ⟨m, hm, two⟩ := lengthen_eq h
    omega
  | case5 u t line backslash quote => exact ⟨t, by rw [beq_iff_eq.1 quote]⟩
  | case6 u t line backslash quote =>
    obtain ⟨m, hm, one⟩ := lengthen_eq h
    have pos := (stringTail_local hm []).1
    omega

theorem quoted_ends {n : Nat} (quote : headIs (· == unit '"') t = true)
    (h : lexeme t = (.string, n)) (two : n = 2) : headIs (· == unit '"') (t.drop n) = false := by
  subst two
  rw [lexeme_quote quote] at h
  split at h
  next fenced =>
    obtain ⟨m, hm, two⟩ := lengthen_eq h
    omega
  next fenced =>
    obtain ⟨m, hm, two⟩ := lengthen_eq h
    obtain rfl : m = 1 := by omega
    obtain ⟨more, hmore⟩ := stringTail_one hm
    refine Bool.eq_false_iff.2 fun third => fenced ?_
    cases t with
    | nil => cases quote
    | cons u t =>
      obtain rfl : u = unit '"' := beq_iff_eq.1 quote
      obtain rfl : t = unit '"' :: more := hmore
      cases more with
      | nil => cases third
      | cons v more =>
        obtain rfl : v = unit '"' := beq_iff_eq.1 third
        exact List.isPrefixOf_iff_prefix.2 (List.prefix_append fence more)

/-- What stands behind a lexeme does not go on with it. -/
theorem lexeme_ends {kind : TokenKind} {n : Nat} (h : lexeme t = (kind, n)) (ok : kind ≠ .error) :
    Ends kind n (t.drop n) := by
  by_cases quote : headIs (· == unit '"') t = true
  · obtain rfl : kind = .string := lexeme_quote_kind quote h ok
    exact quoted_ends quote h
  unfold lexeme at h
  split at h
  next => cases h; trivial
  split at h
  next => cases h; trivial
  split at h
  next =>
    cases h
    exact headIs_drop_takeWhile isNameContinue t
  split at h
  next =>
    have found := number_eq_ok h ok
    obtain ⟨i, f, e, -, -, -, free, rfl, rfl⟩ := wellFormedNumber_eq_ok.1 found
    split <;> exact free
  split at h
  next fenced => exact absurd (headIs_quote_of_fence fenced) quote
  next => exact absurd (congrArg Prod.fst h).symm ok

/-- A lexeme is the same where more text follows that does not go on with it. -/
theorem lexeme_append {kind : TokenKind} {n : Nat} (h : lexeme t = (kind, n)) (ok : kind ≠ .error)
    (hr : Ends kind n rest) : lexeme (t ++ rest) = (kind, n) := by
  have again := (lexeme_local h ok ((lexeme_ends h ok).append hr)).2
  rwa [← List.append_assoc, List.take_append_drop] at again

end GraphQL.Lexer
