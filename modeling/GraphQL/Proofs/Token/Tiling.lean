import GraphQL.Proofs.Token.Extent
import GraphQL.Proofs.Token.Order

/-! # Tokens and gaps tile a text

A text is its tokens and the gaps between them, in order and without overlap.

* `Trivia` says what a gap is made of,
* `Tiles` says that tokens stand one behind the other, each behind a gap, up to a last gap,
* `Tiles.place` reads off it where each token stands,
* `lex_tiles` is the statement about whole texts. -/

namespace GraphQL

set_option autoImplicit false

namespace Lexer

variable {t rest behind gap : Text} {u : CodeUnit}

/-! ## Gaps -/

/-- The units that may stand between tokens: byte order marks, tabs, spaces, line terminators and
commas. -/
def blanks : Text := [0xFEFF, unit '\t', unit ' ', unit '\n', unit '\r', unit ',']

theorem isIgnored_iff : isIgnored u = true ↔ u ∈ blanks := by
  simp only [isIgnored, isLineEnd, blanks, Bool.or_eq_true, beq_iff_eq, List.mem_cons,
    List.not_mem_nil, or_false]
  grind

/-- Blanks and comments in front of `behind`. A comment runs from `#` to the end of its line. -/
inductive Trivia (behind : Text) : Text → Prop where
  | none : Trivia behind []
  | blank {u : CodeUnit} {gap : Text} (blank : u ∈ blanks) (rest : Trivia behind gap) :
      Trivia behind (u :: gap)
  | comment {body gap : Text} (line : ∀ u ∈ body, isLineEnd u = false)
      (ends : ∀ u ∈ (gap ++ behind).head?, isLineEnd u = true) (rest : Trivia behind gap) :
      Trivia behind (unit '#' :: (body ++ gap))

/-- The rest of a comment and the gap behind it. -/
def InComment (behind t : Text) : Prop :=
  ∃ body gap, t = body ++ gap ∧ (∀ u ∈ body, isLineEnd u = false) ∧
    (∀ u ∈ (gap ++ behind).head?, isLineEnd u = true) ∧ Trivia behind gap

theorem InComment.cons (h : InComment behind t) (line : isLineEnd u = false) :
    InComment behind (u :: t) := by
  obtain ⟨body, gap, rfl, inside, ends, trivia⟩ := h
  exact ⟨u :: body, gap, rfl, List.forall_mem_cons.2 ⟨line, inside⟩, ends, trivia⟩

theorem InComment.trivia (h : InComment behind t) : Trivia behind (unit '#' :: t) := by
  obtain ⟨body, gap, rfl, inside, ends, trivia⟩ := h
  exact .comment inside ends trivia

theorem isIgnored_of_lineEnd (h : isLineEnd u = true) : isIgnored u = true := by
  rw [isIgnored, h, Bool.or_true, Bool.true_or, Bool.true_or]

/-- What is taken for a gap is one, whether it begins inside a comment or not. -/
theorem gapLength_gap (t : Text) :
    Trivia (t.drop (gapLength false t)) (t.take (gapLength false t)) ∧
      InComment (t.drop (gapLength true t)) (t.take (gapLength true t)) := by
  induction t with
  | nil => exact ⟨.none, ⟨[], [], rfl, by simp, by simp, .none⟩⟩
  | cons u t ih =>
    obtain ⟨outside, inside⟩ := ih
    constructor
    · rw [gapLength, if_neg Bool.false_ne_true]
      split
      next hash =>
        obtain rfl : u = unit '#' := beq_iff_eq.1 hash
        rw [Nat.add_comm]
        exact inside.trivia
      split
      next ignored =>
        rw [Nat.add_comm]
        exact .blank (isIgnored_iff.1 ignored) outside
      next => exact .none
    · rw [gapLength, if_pos rfl, Nat.add_comm]
      cases line : isLineEnd u with
      | false => exact inside.cons line
      | true =>
        have blank : u ∈ blanks := isIgnored_iff.1 (isIgnored_of_lineEnd line)
        refine ⟨[], u :: t.take (gapLength false t), rfl, by simp, ?_, .blank blank outside⟩
        rintro v ⟨⟩
        exact line

theorem notHigh_of_blank (h : u ∈ blanks) : isHighSurrogate u = false :=
  apart_of_all (by decide) h

/-- A gap ends between two characters. -/
theorem Trivia.whole (h : Trivia behind gap) (some : gap ≠ []) :
    Whole (gap ++ behind) gap.length := by
  induction h with
  | none => exact absurd rfl some
  | @blank u gap blank _ ih =>
    rw [List.length_cons, Nat.add_comm]
    by_cases last : gap = []
    · subst last
      exact .inl ⟨0, u, rfl, rfl, notHigh_of_blank blank⟩
    · exact (ih last).cons u
  | @comment body gap line ends _ ih =>
    have front : (unit '#' :: (body ++ gap)) ++ behind = (unit '#' :: body) ++ (gap ++ behind) := by
      simp
    have length : (unit '#' :: (body ++ gap)).length = (unit '#' :: body).length + gap.length := by
      simp only [List.length_cons, List.length_append]
      omega
    rw [front, length]
    refine Whole.append ?_ _
    by_cases last : gap = []
    · -- the comment ends with its line or with the text
      subst last
      refine .inr ?_
      rw [List.nil_append, List.length_nil, ← List.head?_eq_getElem?]
      cases next : behind.head? with
      | none => rfl
      | some u =>
        rw [List.nil_append, next] at ends
        exact notLow_of_lineEnd (ends u rfl)
    · exact ih last

end Lexer

open Lexer

/-! ## Tilings -/

theorem Text.splitsPair_append (front t : Text) {n : Nat} (pos : 0 < n) :
    (front ++ t).SplitsPair (front.length + n) ↔ t.SplitsPair n := by
  obtain ⟨m, rfl⟩ : ∃ m, n = m + 1 := ⟨n - 1, by omega⟩
  have here (k : Nat) : (front ++ t)[front.length + k]? = t[k]? := by
    rw [List.getElem?_append_right (Nat.le_add_right _ _), Nat.add_sub_cancel_left]
  show (front ++ t)[front.length + m]?.any _ = true ∧
    (front ++ t)[front.length + (m + 1)]?.any _ = true ↔ _
  rw [here, here]
  rfl

/-- The text from the offset `start` on is made of the tokens and of gaps around them. No token is
empty, and none ends inside a surrogate pair. -/
inductive Tiles (source : Int) : Nat → List Token → Text → Prop where
  | done {start : Nat} {gap : Text} (trivia : Trivia [] gap) : Tiles source start [] gap
  | token {start : Nat} {gap rest : Text} {t : Token} {tokens : List Token}
      (trivia : Trivia (t.text ++ rest) gap) (some : t.text ≠ [])
      (span : t.span = ⟨source, (start + gap.length : Nat),
        (start + gap.length + t.text.length : Nat)⟩)
      (whole : ¬(t.text ++ rest).SplitsPair t.text.length)
      (later : Tiles source (start + gap.length + t.text.length) tokens rest) :
      Tiles source start (t :: tokens) (gap ++ (t.text ++ rest))

theorem Lexer.lexFrom_tiles (source : Int) (start : Nat) (text : Text) :
    Tiles source start (lexFrom source start text) text := by
  fun_induction lexFrom source start text with
  | case1 start text h =>
    have trivia := (gapLength_gap text).1
    rw [h] at trivia
    have all : text.take (gapLength false text) = text := by
      have split := List.take_append_drop (gapLength false text) text
      rwa [h, List.append_nil] at split
    exact .done (all ▸ trivia)
  | case2 start text u rest h found cut next stop ih =>
    obtain ⟨split, gap, length⟩ := cut_eq h
    have trivia := (gapLength_gap text).1
    have whole := (lexeme_whole u rest).not_splitsPair
    have pos := lexeme_pos u rest
    rw [h] at trivia
    rw [split]
    refine .token (t := ⟨found.1, cut, ⟨source, next, stop⟩⟩) ?_ ?_ ?_ ?_ ?_
    · rwa [List.take_append_drop]
    · exact List.length_pos_iff.1 (length ▸ pos)
    · rw [gap]
    · rw [List.take_append_drop, length]
      exact whole
    · rw [gap]
      exact ih

/-- Where a token stands in a text, as what its span tells. -/
structure Token.StandsIn (t : Token) (source : Int) (text : Text) (i j : Nat) : Prop where
  span : t.span = ⟨source, i, j⟩
  lt : i < j
  inside : j ≤ text.length
  slice : t.text = text.extract i j
  start_whole : ¬text.SplitsPair i
  stop_whole : ¬text.SplitsPair j

/-- Each token of a tiling stands where its span tells, also with more text in front. -/
theorem Tiles.place {source : Int} {start : Nat} {tokens : List Token} {rest : Text}
    (h : Tiles source start tokens rest) (front : Text) (length : front.length = start)
    (seam : ¬(front ++ rest).SplitsPair start) :
    ∀ t ∈ tokens, ∃ i j, t.StandsIn source (front ++ rest) i j := by
  induction h generalizing front with
  | done => simp
  | @token start gap rest t tokens trivia some span whole _ ih =>
    have pos : 0 < t.text.length := List.length_pos_iff.2 some
    have before : (front ++ gap).length = start + gap.length := by rw [List.length_append, length]
    have here : front ++ (gap ++ (t.text ++ rest)) = (front ++ gap) ++ (t.text ++ rest) := by simp
    have after : front ++ (gap ++ (t.text ++ rest)) = ((front ++ gap) ++ t.text) ++ rest := by simp
    have stop : ¬((front ++ gap) ++ (t.text ++ rest)).SplitsPair
        (start + gap.length + t.text.length) := by
      rw [← before, Text.splitsPair_append _ _ pos]
      exact whole
    rw [List.forall_mem_cons]
    constructor
    · refine ⟨_, _, span, by omega, ?_, ?_, ?_, ?_⟩
      · simp only [List.length_append, length]
        omega
      · rw [List.extract_eq_take_drop, here, ← before, List.drop_left, Nat.add_sub_cancel_left,
          List.take_left]
      · -- a token without a gap in front begins where the one before it ends
        by_cases close : gap = []
        · subst close
          exact seam
        · rw [← length, Text.splitsPair_append _ _ (List.length_pos_iff.2 close)]
          exact (trivia.whole close).not_splitsPair
      · rwa [here]
    · rw [after]
      refine ih _ (by rw [List.length_append, before]) ?_
      rwa [← after, here]

/-- Every text is its tokens and gaps of blanks and comments, one behind the other. The tokens are
not empty, stand in order without overlap where their spans tell, and no surrogate pair lies across
the start or the end of one, whether the text is well formed or not. -/
theorem lex_tiles (source : Int) (text : Text) :
    Tiles source 0 (lex source text) text ∧
      (lex source text).Pairwise (fun s t => s.span.stop ≤ t.span.start) ∧
      ∀ t ∈ lex source text, ∃ i j, t.StandsIn source text i j :=
  have tiles := lexFrom_tiles source 0 text
  ⟨tiles, (lex_pairwise source text).imp fun before => before.2,
    tiles.place [] rfl not_false⟩

end GraphQL
