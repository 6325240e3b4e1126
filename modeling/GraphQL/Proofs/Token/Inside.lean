import GraphQL.Token.Lexer

/-! # Spans inside a text

Every token of a text lies inside it, and so does the span that covers several of them. -/

namespace GraphQL

set_option autoImplicit false

namespace Span

/-- A span of the document `source` inside a text of so many units. -/
structure Inside (source : Int) (length : Nat) (s : Span) : Prop where
  own : s.source = source
  nonneg : 0 ≤ s.start
  ordered : s.start ≤ s.stop
  bounded : s.stop ≤ length

variable {source : Int} {length : Nat} {s : Span}

theorem Inside.join {s' : Span} (h : s.Inside source length) (h' : s'.Inside source length) :
    (s.join s').Inside source length := by
  have start : (s.join s').start = min s.start s'.start := rfl
  have stop : (s.join s').stop = max s.stop s'.stop := rfl
  obtain ⟨own, nonneg, ordered, bounded⟩ := h
  obtain ⟨-, nonneg', ordered', bounded'⟩ := h'
  exact ⟨own, by omega, by omega, by omega⟩

/-- The span that covers some spans is there if they are, and inside if they are. -/
theorem cover_inside {spans : List Span} (some : spans ≠ [])
    (inside : ∀ s ∈ spans, s.Inside source length) :
    ((cover spans).getD nowhere).Inside source length := by
  cases spans with
  | nil => exact absurd rfl some
  | cons s rest =>
    rw [List.forall_mem_cons] at inside
    obtain ⟨first, others⟩ := inside
    show (rest.foldl Span.join s).Inside source length
    clear some
    induction rest generalizing s with
    | nil => exact first
    | cons s' rest ih =>
      rw [List.forall_mem_cons] at others
      exact ih (s.join s') (first.join others.1) others.2

end Span

namespace Lexer

theorem lexFrom_inside (source : Int) (start : Nat) (text : Text) :
    ∀ t ∈ lexFrom source start text, t.span.Inside source (start + text.length) := by
  fun_induction lexFrom source start text with
  | case1 => simp
  | case2 start text u rest h found lexeme next stop ih =>
    have gap : (text.drop (gapLength false text)).length = (u :: rest).length := by rw [h]
    have taken : lexeme.length = min found.2 (u :: rest).length := List.length_take
    rw [List.length_drop] at gap
    rw [List.length_cons] at gap taken
    have ends : stop + ((u :: rest).drop found.2).length ≤ start + text.length := by
      rw [List.length_drop, List.length_cons]
      omega
    rw [List.forall_mem_cons]
    refine ⟨⟨rfl, Int.natCast_nonneg next, ?_, ?_⟩, fun t ht => ?_⟩
    · show (next : Int) ≤ (stop : Int)
      omega
    · show (stop : Int) ≤ ((start + text.length : Nat) : Int)
      omega
    · obtain ⟨own, nonneg, ordered, bounded⟩ := ih t ht
      exact ⟨own, nonneg, ordered, by omega⟩

end Lexer

theorem lex_inside (source : Int) (text : Text) :
    ∀ t ∈ lex source text, t.span.Inside source text.length := by
  have h := Lexer.lexFrom_inside source 0 text
  rwa [Nat.zero_add] at h

end GraphQL
