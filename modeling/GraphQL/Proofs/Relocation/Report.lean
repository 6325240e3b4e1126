import GraphQL.Diagnostic.Syntax
import GraphQL.Proofs.Document.Relocated
import GraphQL.Proofs.Recovery.Partition
import GraphQL.Proofs.Relocation.TypeSystem

/-! # What is reported at another place

What a parser leaves unrecognized in a buffer is left, relocated, where tokens stand in front of it
that are all accounted for. The syntax errors of a relocated document are the relocated errors, in
the same order as long as the places keep theirs. -/

namespace GraphQL

set_option autoImplicit false

open Recovery (Cursor Run)

/-! ## Runs -/

def Recovery.Run.mapSpans (f : Span → Span) (run : Run Token) : Run Token :=
  ⟨f run.span, run.tokens.map (Token.mapSpans f)⟩

/-- Splitting a mapped list, where neighbours are told apart after the map as before. -/
theorem splitBy_map {α β : Type} {f : α → β} {r : β → β → Bool} {r' : α → α → Bool}
    (same : ∀ x y, r (f x) (f y) = r' x y) (l : List α) :
    (l.map f).splitBy r = (l.splitBy r').map (List.map f) := by
  rw [List.splitBy_eq_iff]
  refine ⟨?_, ?_, ?_, ?_⟩
  · rw [← List.map_flatten, List.flatten_splitBy]
  · intro empty
    obtain ⟨block, member, eq⟩ := List.mem_map.1 empty
    exact List.ne_nil_of_mem_splitBy member (List.map_eq_nil_iff.1 eq)
  · intro mapped inside
    obtain ⟨block, member, rfl⟩ := List.mem_map.1 inside
    rw [List.isChain_map]
    exact (List.isChain_of_mem_splitBy member).imp fun x y h => (same x y).trans h
  · rw [List.isChain_map]
    refine (List.isChain_getLast_head_splitBy r' l).imp fun x y => ?_
    rintro ⟨hx, hy, apart⟩
    refine ⟨mt List.map_eq_nil_iff.1 hx, mt List.map_eq_nil_iff.1 hy, ?_⟩
    rw [List.getLast_map, List.head_map, same]
    exact apart

namespace Relocation

variable (m : Relocation)

theorem cover_map (spans : List Span) :
    Span.cover (spans.map m.place) = (Span.cover spans).map m.place := by
  cases spans with
  | nil => rfl
  | cons first spans =>
    show some ((spans.map m.place).foldl Span.join (m.place first)) = _
    rw [List.foldl_map, List.foldl_hom m.place fun a b => (m.place_join a b).symm]
    rfl

theorem mem_positions {passed : List Nat} {p : Nat} :
    m.front.size + p ∈ m.positions passed ↔ p ∈ passed :=
  List.mem_map_of_injective fun _ _ => Nat.add_left_cancel

theorem le_of_mem_positions {passed : List Nat} {p : Nat} (h : p ∈ m.positions passed) :
    m.front.size ≤ p := by
  obtain ⟨q, -, rfl⟩ := List.mem_map.1 h
  exact Nat.le_add_right _ _

/-- The tokens in front are no part of what is unaccounted for. -/
theorem unaccounted_cursor (c : Cursor Token) (skipped : List Nat) :
    (m.cursor c).unaccounted (m.positions skipped) = m.positions (c.unaccounted skipped) := by
  have front : (List.range m.front.size).filter (fun p => decide ((m.cursor c).position ≤ p) ||
      (m.positions skipped).contains p) = [] := by
    rw [List.filter_eq_nil_iff]
    intro p hp
    have before : p < m.front.size := List.mem_range.1 hp
    simp only [Bool.or_eq_true, decide_eq_true_iff, List.contains_iff_mem, not_or]
    exact ⟨fun h => absurd (Nat.le_trans (Nat.le_add_right _ _) h) (Nat.not_le.2 before),
      fun h => absurd (m.le_of_mem_positions h) (Nat.not_le.2 before)⟩
  rw [Cursor.unaccounted, m.size_cursor, List.range_add, List.filter_append, front,
    List.nil_append, List.filter_map, Cursor.unaccounted]
  refine congrArg m.positions (List.filter_congr fun p _ => ?_)
  rw [Bool.eq_iff_iff]
  simp only [Function.comp_apply, Bool.or_eq_true, decide_eq_true_iff, List.contains_iff_mem,
    m.mem_positions]
  exact or_congr_left Nat.add_le_add_iff_left

theorem tokens_positions (c : Cursor Token) (block : List Nat) :
    (m.positions block).filterMap ((m.cursor c).tokens[·]?) =
      (block.filterMap (c.tokens[·]?)).map m.token := by
  rw [positions, List.filterMap_map, List.map_filterMap]
  exact List.filterMap_congr fun p _ => m.getElem?_cursor c p

/-- A run of tokens that are there. -/
theorem run_positions {c : Cursor Token} {block : List Nat} (some : block ≠ [])
    (inside : ∀ p ∈ block, p < c.tokens.size) :
    (m.cursor c).run (m.positions block) = (c.run block).mapSpans m.place := by
  obtain ⟨p, rest, rfl⟩ := List.exists_cons_of_ne_nil some
  have here := Array.getElem?_eq_getElem (inside p List.mem_cons_self)
  have spans (tokens : List Token) : (tokens.map m.token).map HasSpan.span =
      (tokens.map HasSpan.span).map m.place := by
    rw [List.map_map, List.map_map]
    rfl
  rw [Cursor.run, m.tokens_positions, Cursor.run, List.filterMap_cons, here]
  dsimp only
  rw [spans, m.cover_map]
  rfl

theorem runs_cursor (c : Cursor Token) (skipped : List Nat) :
    (m.cursor c).runs (m.positions skipped) = (c.runs skipped).map (Run.mapSpans m.place) := by
  have blocks : (m.positions (c.unaccounted skipped)).splitBy (fun p q => q == p + 1) =
      ((c.unaccounted skipped).splitBy fun p q => q == p + 1).map m.positions := by
    refine splitBy_map (fun p q => ?_) _
    rw [Nat.add_assoc, Bool.eq_iff_iff, beq_iff_eq, beq_iff_eq, Nat.add_left_cancel_iff]
  rw [Cursor.runs, m.unaccounted_cursor, blocks, List.map_map, Cursor.runs, List.map_map]
  refine List.map_congr_left fun block member => ?_
  refine m.run_positions (List.ne_nil_of_mem_splitBy member) fun p hp => ?_
  have unaccounted : p ∈ c.unaccounted skipped := by
    rw [← List.flatten_splitBy (fun p q => q == p + 1) (c.unaccounted skipped)]
    exact List.mem_flatten.2 ⟨block, member, hp⟩
  exact List.mem_range.1 (List.mem_filter.1 unaccounted).1

end Relocation

/-! ## Gaps -/

section Gaps

theorem Outline.gapsOf_append (os rest : List Outline) :
    gapsOf (os ++ rest) = gapsOf os ++ gapsOf rest := by
  rw [gapsOf_eq, marksOf_append, List.filterMap_append, ← gapsOf_eq, ← gapsOf_eq]

variable {f : Span → Span}

mutual
theorem Outline.gaps_mapSpans : (o : Outline) → (o.mapSpans f).gaps = o.gaps.map (mapGap f)
  | .token t => by simp [gaps]
  | .missing gap => by simp [mapSpans, gaps]
  | .present content => by simp [mapSpans, gaps, gapsOf_mapSpans content]
  | .node role n parts => by simp [mapSpans, gaps, gapsOf_mapSpans parts]
theorem Outline.gapsOf_mapSpans :
    (os : List Outline) → gapsOf (mapSpansAll f os) = (gapsOf os).map (mapGap f)
  | [] => by simp [mapSpansAll, gapsOf]
  | o :: rest => by simp [mapSpansAll, gapsOf, gaps_mapSpans o, gapsOf_mapSpans rest]
end

end Gaps

/-! ## Diagnostics -/

def Label.mapSpans (f : Span → Span) (label : Label) : Label := { label with span := f label.span }

def Diagnostic.mapSpans (f : Span → Span) (d : Diagnostic) : Diagnostic :=
  { d with span := f d.span, labels := d.labels.map (Label.mapSpans f) }

theorem Diagnostic.ofGap_mapGap (f : Span → Span) (gap : Recovery.Gap Expectation) :
    ofGap (mapGap f gap) = (ofGap gap).mapSpans f := by
  obtain ⟨span, code, opening⟩ := gap
  cases opening with
  | none => rfl
  | some opening =>
    cases label : code.entry.relatedLabel <;>
      simp [ofGap, mapGap, mapSpans, make, label, Label.mapSpans]

/-- Places that keep their order keep that of the errors. -/
theorem syntaxErrors_mapSpans {f : Span → Span} (ordered : ∀ a b : Span,
      (f a).start ≤ (f b).start ↔ a.start ≤ b.start) {moved outline : Outline}
    (gaps : moved.gaps = outline.gaps.map (mapGap f)) (runs : List (Run Token)) :
    syntaxErrors moved (runs.map (Run.mapSpans f)) =
      (syntaxErrors outline runs).map (Diagnostic.mapSpans f) := by
  have same : moved.gaps.map Diagnostic.ofGap ++ (runs.map (Run.mapSpans f)).map Diagnostic.ofRun =
      (outline.gaps.map Diagnostic.ofGap ++ runs.map Diagnostic.ofRun).map
        (Diagnostic.mapSpans f) := by
    rw [gaps, List.map_append, List.map_map, List.map_map, List.map_map, List.map_map]
    congr 1
    exact List.map_congr_left fun gap _ => Diagnostic.ofGap_mapGap f gap
  rw [syntaxErrors, same, syntaxErrors]
  exact (List.map_mergeSort fun a _ b _ => decide_eq_decide.2 (ordered a.span b.span).symm).symm

end GraphQL
