import GraphQL.Proofs.Token.Local

/-! # Tokens are read back from their texts

* `lexemes` are the tokens of a text without their places; gaps make no difference to them,
* a token is `Legible` where its text is read as the token again,
* `lex_legible`: every token that was found in a text is legible. -/

namespace GraphQL

set_option autoImplicit false

/-- A token without its place. -/
def Token.lexeme (t : Token) : TokenKind × Text := (t.kind, t.text)

namespace Lexer

/-! ## Lexemes of a text -/

variable {t rest : Text} {u : CodeUnit}

/-- The tokens of a text without their places. -/
def lexemes (t : Text) : List (TokenKind × Text) := (lexFrom 1 0 t).map Token.lexeme

theorem lexFrom_nil (source : Int) (start : Nat) (h : t.drop (gapLength false t) = []) :
    lexFrom source start t = [] := by
  unfold lexFrom
  split
  · rfl
  next v more h' => rw [h] at h'; cases h'

/-- The first token of a text, from `next` to `stop`, and the tokens behind it. -/
theorem lexFrom_step (source : Int) {start : Nat} (next stop : Nat) {found : TokenKind × Nat}
    (h : t.drop (gapLength false t) = u :: rest) (hfound : found = lexeme (u :: rest))
    (hnext : next = start + gapLength false t)
    (hstop : stop = next + ((u :: rest).take found.2).length) :
    lexFrom source start t = ⟨found.1, (u :: rest).take found.2, ⟨source, next, stop⟩⟩ ::
      lexFrom source stop ((u :: rest).drop found.2) := by
  subst hfound hnext hstop
  rw [lexFrom.eq_def]
  split
  next h' =>
    rw [h] at h'
    cases h'
  next v more h' =>
    rw [h] at h'
    cases h'
    rfl

theorem lexFrom_cons (source : Int) (start : Nat) (h : t.drop (gapLength false t) = u :: rest) :
    ∃ stop span, lexFrom source start t =
      ⟨(lexeme (u :: rest)).1, (u :: rest).take (lexeme (u :: rest)).2, span⟩ ::
        lexFrom source stop ((u :: rest).drop (lexeme (u :: rest)).2) :=
  ⟨_, _, lexFrom_step source _ _ h rfl rfl rfl⟩

/-- Where a text stands makes no difference to what it is cut into. -/
theorem lexFrom_lexemes (source : Int) (start : Nat) (t : Text) :
    (lexFrom source start t).map Token.lexeme = lexemes t := by
  suffices same : ∀ source' start', (lexFrom source start t).map Token.lexeme =
      (lexFrom source' start' t).map Token.lexeme from same 1 0
  fun_induction lexFrom source start t with
  | case1 start t h =>
    intro source' start'
    rw [lexFrom_nil source' start' h]
  | case2 start t u rest h found text next stop ih =>
    intro source' start'
    obtain ⟨stop', span, step⟩ := lexFrom_cons source' start' h
    rw [step, List.map_cons, List.map_cons, ih source' stop']
    rfl

theorem lexemes_nil : lexemes [] = [] := by
  rw [lexemes, lexFrom_nil 1 0 rfl, List.map_nil]

/-- At a text without a gap at its head the lexeme is cut off. -/
theorem lexemes_cons (h : gapLength false (u :: rest) = 0) :
    lexemes (u :: rest) =
      ((lexeme (u :: rest)).1, (u :: rest).take (lexeme (u :: rest)).2) ::
        lexemes ((u :: rest).drop (lexeme (u :: rest)).2) := by
  obtain ⟨stop, span, step⟩ :=
    lexFrom_cons 1 0 (by rw [h]; exact List.drop_zero)
  rw [lexemes, step, List.map_cons, lexFrom_lexemes]
  rfl

theorem lexemes_congr {t' : Text}
    (h : t.drop (gapLength false t) = t'.drop (gapLength false t')) : lexemes t = lexemes t' := by
  cases rest : t.drop (gapLength false t) with
  | nil => rw [lexemes, lexemes, lexFrom_nil 1 0 rest, lexFrom_nil 1 0 (h ▸ rest)]
  | cons u more =>
    obtain ⟨stop, span, step⟩ := lexFrom_cons 1 0 rest
    obtain ⟨stop', span', step'⟩ := lexFrom_cons 1 0 (h ▸ rest)
    rw [lexemes, lexemes, step, step', List.map_cons, List.map_cons, lexFrom_lexemes,
      lexFrom_lexemes]
    rfl

theorem lexemes_ignored (h : isIgnored u = true) (t : Text) : lexemes (u :: t) = lexemes t := by
  refine lexemes_congr ?_
  have notComment : (u == unit '#') = false := by
    refine beq_eq_false_iff_ne.2 ?_
    rintro rfl
    exact absurd h (by decide)
  have gap : gapLength false (u :: t) = gapLength false t + 1 := by
    rw [gapLength, if_neg Bool.false_ne_true, notComment, if_neg Bool.false_ne_true, if_pos h,
      Nat.add_comm]
  rw [gap, List.drop_succ_cons]

/-! ## Gaps -/

/-- Units that separate tokens and mean nothing else. -/
def IsGap (gap : Text) : Prop := ∀ u ∈ gap, isIgnored u = true

instance : DecidablePred IsGap := fun _ => decidable_of_iff _ List.all_eq_true

theorem IsGap.append {a b : Text} (ha : IsGap a) (hb : IsGap b) : IsGap (a ++ b) := fun u hu =>
  (List.mem_append.1 hu).elim (ha u) (hb u)

theorem lexemes_gap {gap : Text} (h : IsGap gap) (t : Text) : lexemes (gap ++ t) = lexemes t := by
  induction gap with
  | nil => rfl
  | cons u gap ih =>
    rw [IsGap, List.forall_mem_cons] at h
    rw [List.cons_append, lexemes_ignored h.1, ih h.2]

theorem continues_of_ignored (h : isIgnored u = true) : continues u = false := by
  simp only [isIgnored, isLineEnd, Bool.or_eq_true, beq_iff_eq] at h
  obtain ((((rfl | rfl) | rfl | rfl) | rfl) | rfl) := h <;> decide

theorem stops_gap {gap : Text} (h : IsGap gap) (some : gap ≠ []) (rest : Text) :
    Stops (gap ++ rest) := by
  cases gap with
  | nil => exact absurd rfl some
  | cons u gap => exact continues_of_ignored (h u List.mem_cons_self)

/-! ## Tokens of a text -/

theorem gapLength_drop (inComment : Bool) (t : Text) :
    gapLength false (t.drop (gapLength inComment t)) = 0 := by
  induction t generalizing inComment with
  | nil => rfl
  | cons u t ih =>
    rw [gapLength]
    split
    · rw [Nat.add_comm, List.drop_succ_cons, ih]
    split
    · rw [Nat.add_comm, List.drop_succ_cons, ih]
    split
    · rw [Nat.add_comm, List.drop_succ_cons, ih]
    next comment ignored =>
      rw [List.drop_zero, gapLength, if_neg Bool.false_ne_true, if_neg comment, if_neg ignored]

/-- Whether a gap begins here is seen at the head. -/
theorem gapLength_head (h : gapLength false (u :: rest) = 0) (t : Text) :
    gapLength false (u :: t) = 0 := by
  rw [gapLength, if_neg Bool.false_ne_true] at h ⊢
  split at h
  · omega
  split at h
  · omega
  next comment ignored => rw [if_neg comment, if_neg ignored]

/-- The lexeme at the head of a text, cut off and put before another text. -/
theorem lexemes_cut {kind : TokenKind} {n : Nat} (noGap : gapLength false (u :: rest) = 0)
    (h : lexeme (u :: rest) = (kind, n)) (ok : kind ≠ .error)
    (hr : kind ≠ .punctuator → Stops t) :
    lexemes ((u :: rest).take n ++ t) = (kind, (u :: rest).take n) :: lexemes t := by
  obtain ⟨short, again⟩ := lexeme_local h ok (ends_of_stops hr)
  have len : ((u :: rest).take n).length = n := List.length_take_of_le short
  obtain ⟨m, rfl⟩ : ∃ m, n = m + 1 := by
    have pos := lexeme_pos u rest
    rw [h] at pos
    exact ⟨_, (Nat.succ_pred_eq_of_pos pos).symm⟩
  have head : (u :: rest).take (m + 1) ++ t = u :: (rest.take m ++ t) := rfl
  rw [head, lexemes_cons (gapLength_head noGap _), ← head, again, List.take_left' len,
    List.drop_left' len]

end Lexer

open Lexer

/-- The text of the token is read as the token, with anything behind it where it is a punctuator and
with anything that does not go on with it elsewhere. -/
def Token.Legible (t : Token) : Prop :=
  ∀ rest : Text, (t.kind ≠ .punctuator → Stops rest) →
    lexemes (t.text ++ rest) = t.lexeme :: lexemes rest

theorem Token.Legible.text_ne_nil {t : Token} (h : t.Legible) : t.text ≠ [] := by
  intro none
  have := h [] fun _ => stops_nil
  rw [none, List.append_nil] at this
  exact absurd (congrArg List.length this) (by rw [List.length_cons]; omega)

theorem Lexer.lexFrom_legible (source : Int) (start : Nat) (text : Text) :
    ∀ t ∈ lexFrom source start text, t.kind ≠ .error → t.Legible := by
  fun_induction lexFrom source start text with
  | case1 => simp
  | case2 start text u rest h found cut next stop ih =>
    intro t ht ok
    rcases List.mem_cons.1 ht with rfl | ht
    · intro more hr
      have noGap : gapLength false (u :: rest) = 0 := by
        have := gapLength_drop false text
        rwa [h] at this
      have here : lexeme (u :: rest) = (found.1, found.2) := rfl
      exact lexemes_cut noGap here ok hr
    · exact ih t ht ok

/-- Every token of a text can be read back from its own text. -/
theorem lex_legible (source : Int) (text : Text) :
    ∀ t ∈ lex source text, t.kind ≠ .error → t.Legible := lexFrom_legible source 0 text

theorem lex_lexemes (source : Int) (text : Text) :
    (lex source text).map Token.lexeme = lexemes text := lexFrom_lexemes source 0 text

end GraphQL
