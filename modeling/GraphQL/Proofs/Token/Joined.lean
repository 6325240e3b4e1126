import GraphQL.Proofs.Document.Relocation
import GraphQL.Proofs.Token.Legible

/-! # Tokens of joined texts

A line end between two texts keeps their tokens apart. Where the first text has no `error` token, so
that none of its lexemes goes on to the end of the line or beyond, the tokens of both texts together
are those of the first and then those of the second, further on: `lex_line`. -/

namespace GraphQL

set_option autoImplicit false

/-- The span `n` units further on. -/
def Span.shift (n : Nat) (s : Span) : Span := ⟨s.source, s.start + n, s.stop + n⟩

namespace Lexer

variable {t rest : Text} {u : CodeUnit}

/-! ## Gaps with more behind them -/

theorem gapLength_append {inComment : Bool} (h : t.drop (gapLength inComment t) ≠ [])
    (rest : Text) : gapLength inComment (t ++ rest) = gapLength inComment t := by
  fun_induction gapLength inComment t with
  | case1 => exact absurd List.drop_nil h
  | case2 u t ih =>
    rw [Nat.add_comm, List.drop_succ_cons] at h
    rw [List.cons_append, gapLength, if_pos rfl, ih h]
  | case3 inComment u t notComment hash ih =>
    rw [Nat.add_comm, List.drop_succ_cons] at h
    rw [List.cons_append, gapLength, if_neg notComment, if_pos hash, ih h]
  | case4 inComment u t notComment hash ignored ih =>
    rw [Nat.add_comm, List.drop_succ_cons] at h
    rw [List.cons_append, gapLength, if_neg notComment, if_neg hash, if_pos ignored, ih h]
  | case5 inComment u t notComment hash ignored =>
    rw [List.cons_append, gapLength, if_neg notComment, if_neg hash, if_neg ignored]

/-- The first lexeme stands where it stood, and more text behind it. -/
theorem drop_gapLength_append (h : t.drop (gapLength false t) = u :: rest) (more : Text) :
    (t ++ more).drop (gapLength false (t ++ more)) = u :: (rest ++ more) := by
  have some : t.drop (gapLength false t) ≠ [] := h ▸ List.cons_ne_nil _ _
  have inside : gapLength false t ≤ t.length :=
    Nat.le_of_lt (Nat.lt_of_not_le fun outside => some (List.drop_of_length_le outside))
  rw [gapLength_append some, List.drop_append_of_le_length inside, h, List.cons_append]

/-- A line end goes on with a gap, and ends a comment. -/
theorem gapLength_line {inComment : Bool} (h : t.drop (gapLength inComment t) = []) (rest : Text) :
    gapLength inComment (t ++ unit '\n' :: rest) = t.length + 1 + gapLength false rest := by
  fun_induction gapLength inComment t with
  | case1 inComment =>
    cases inComment with
    | false => rfl
    | true => rfl
  | case2 u t ih =>
    rw [Nat.add_comm, List.drop_succ_cons] at h
    rw [List.cons_append, gapLength, if_pos rfl, ih h, List.length_cons]
    omega
  | case3 inComment u t notComment hash ih =>
    rw [Nat.add_comm, List.drop_succ_cons] at h
    rw [List.cons_append, gapLength, if_neg notComment, if_pos hash, ih h, List.length_cons]
    omega
  | case4 inComment u t notComment hash ignored ih =>
    rw [Nat.add_comm, List.drop_succ_cons] at h
    rw [List.cons_append, gapLength, if_neg notComment, if_neg hash, if_pos ignored, ih h,
      List.length_cons]
    omega
  | case5 => cases h

/-! ## Texts -/

/-- Where the gap at the head ends, and what follows it, tell what a text is cut into. -/
theorem lexFrom_congr (source : Int) {start start' : Nat} {t t' : Text}
    (place : start + gapLength false t = start' + gapLength false t')
    (behind : t.drop (gapLength false t) = t'.drop (gapLength false t')) :
    lexFrom source start t = lexFrom source start' t' := by
  cases h : t.drop (gapLength false t) with
  | nil => rw [lexFrom_nil source start h, lexFrom_nil source start' (behind ▸ h)]
  | cons u rest =>
    rw [lexFrom_step source _ _ h rfl rfl rfl, lexFrom_step source _ _ (behind ▸ h) rfl place rfl]

/-- The tokens of a text that starts further on are its tokens further on. -/
theorem lexFrom_shift (source : Int) (start n : Nat) (t : Text) :
    lexFrom source (start + n) t = (lexFrom source start t).map (Token.mapSpans (Span.shift n)) := by
  fun_induction lexFrom source start t with
  | case1 start t h => rw [lexFrom_nil source (start + n) h, List.map_nil]
  | case2 start t u rest h found text next stop ih =>
    have place : next + n = start + n + gapLength false t := Nat.add_right_comm _ _ _
    have behind : stop + n = next + n + text.length := Nat.add_right_comm _ _ _
    have here : found = lexeme (u :: rest) := rfl
    rw [lexFrom_step source (next + n) (stop + n) h here place behind, ih]
    rfl

/-- Behind lexemes that are all tokens a line end starts a gap. -/
theorem lexFrom_line (source : Int) (start : Nat) (t rest : Text)
    (ok : ∀ token ∈ lexFrom source start t, token.kind ≠ .error) :
    lexFrom source start (t ++ unit '\n' :: rest) =
      lexFrom source start t ++ lexFrom source (start + t.length + 1) rest := by
  fun_induction lexFrom source start t with
  | case1 start t h =>
    have gap := gapLength_line h rest
    refine lexFrom_congr source (by omega) ?_
    have line : (t ++ unit '\n' :: rest).drop (t.length + 1) = rest := by
      rw [← List.drop_drop, List.drop_left]
      rfl
    rw [gap, ← List.drop_drop, line]
  | case2 start t u more h found text next stop ih =>
    rw [List.forall_mem_cons] at ok
    have ends : Ends found.1 found.2 (unit '\n' :: rest) := ends_of_stops fun _ => rfl
    have short : found.2 ≤ (u :: more).length := (lexeme_local rfl ok.1 ends).1
    have gap : gapLength false (t ++ unit '\n' :: rest) = gapLength false t :=
      gapLength_append (h ▸ List.cons_ne_nil _ _) _
    have again : found = lexeme (u :: (more ++ unit '\n' :: rest)) :=
      (@lexeme_append (u :: more) _ found.1 found.2 rfl ok.1 ends).symm
    have cut : (u :: (more ++ unit '\n' :: rest)).take found.2 = text :=
      List.take_append_of_le_length short
    have left : (u :: (more ++ unit '\n' :: rest)).drop found.2 =
        (u :: more).drop found.2 ++ unit '\n' :: rest :=
      List.drop_append_of_le_length short
    have behind : text.length + ((u :: more).drop found.2).length =
        t.length - gapLength false t := by
      rw [← List.length_append, List.take_append_drop, ← h, List.length_drop]
    have inside : 0 < t.length - gapLength false t := by
      rw [← List.length_drop, h]
      exact Nat.zero_lt_succ _
    have place : stop + ((u :: more).drop found.2).length + 1 = start + t.length + 1 := by
      simp only [stop, next]
      omega
    rw [lexFrom_step source next stop (drop_gapLength_append h _) again (by rw [gap]) (by rw [cut]),
      cut, left, ih ok.2, place]
    rfl

end Lexer

open Lexer in
/-- The tokens of two texts with a line end between them. -/
theorem lex_line (source : Int) (a b : Text) (ok : ∀ t ∈ lex source a, t.kind ≠ .error) :
    lex source (a ++ "\n" ++ b) =
      lex source a ++ (lex source b).map (Token.mapSpans (Span.shift (a.length + 1))) := by
  have joined := lexFrom_line source 0 a b ok
  have line : ("\n" : Text) ++ b = unit '\n' :: b := rfl
  have place : 0 + a.length + 1 = 0 + (a.length + 1) := Nat.add_assoc _ _ _
  rw [lex, List.append_assoc, line, joined, place, lexFrom_shift]
  rfl

end GraphQL
