import GraphQL.Token.Lexer

/-! # Tokens in the order of a text

No two tokens of a text start at the same place: each starts behind the one before it, and the span
that covers several of them starts where the first does. -/

namespace GraphQL

set_option autoImplicit false

namespace Token

/-- One token starts and ends no later than the other starts. -/
def Before (s t : Token) : Prop := s.span.start < t.span.start ∧ s.span.stop ≤ t.span.start

theorem Before.start_lt {s t : Token} (h : s.Before t) : s.span.start < t.span.start := h.1

end Token

namespace Lexer

theorem lexFrom_start_le (source : Int) (start : Nat) (text : Text) :
    ∀ t ∈ lexFrom source start text, (start : Int) ≤ t.span.start := by
  fun_induction lexFrom source start text with
  | case1 => simp
  | case2 start text u rest h found lexeme next stop ih =>
    intro t ht
    rcases List.mem_cons.1 ht with rfl | ht
    · show (start : Int) ≤ (next : Int)
      omega
    · have := ih t ht
      omega

theorem lexFrom_pairwise (source : Int) (start : Nat) (text : Text) :
    (lexFrom source start text).Pairwise Token.Before := by
  fun_induction lexFrom source start text with
  | case1 => exact List.Pairwise.nil
  | case2 start text u rest h found lexeme next stop ih =>
    refine List.Pairwise.cons (fun t ht => ?_) ih
    have later : (stop : Int) ≤ t.span.start := lexFrom_start_le source stop _ t ht
    have : lexeme.length = min found.2 (rest.length + 1) := List.length_take
    have : 0 < found.2 := lexeme_pos u rest
    refine ⟨?_, later⟩
    show (next : Int) < t.span.start
    omega

end Lexer

theorem lex_pairwise (source : Int) (text : Text) : (lex source text).Pairwise Token.Before :=
  Lexer.lexFrom_pairwise source 0 text

/-! ## Covers -/

theorem Span.foldl_join_start (s : Span) (rest : List Span) (h : ∀ r ∈ rest, s.start ≤ r.start) :
    (rest.foldl Span.join s).start = s.start := by
  induction rest generalizing s with
  | nil => rfl
  | cons r rest ih =>
    have hr : s.start ≤ r.start := h r List.mem_cons_self
    have hs : (s.join r).start = s.start := by
      show min s.start r.start = s.start
      omega
    rw [List.foldl_cons, ih, hs]
    intro r' hr'
    rw [hs]
    exact h r' (List.mem_cons_of_mem r hr')

theorem cover_start {t : Token} {rest : List Token} (h : (t :: rest).Pairwise Token.Before) :
    (Span.cover ((t :: rest).map Token.span)).map Span.start = some t.span.start := by
  rw [List.map_cons, Span.cover, Option.map_some, Span.foldl_join_start]
  intro r hr
  obtain ⟨t', ht', rfl⟩ := List.mem_map.1 hr
  exact Int.le_of_lt (List.rel_of_pairwise_cons h ht').start_lt

end GraphQL
