import Mathlib.Order.Bounds.Basic
import GraphQL.Proofs.Recovery.Search

/-! # Where a search lands

A search tries the positions from its cursor to the end of the input, the end included, in order. So
it lands on the first of them where the item parses or the recovery point is recognized, and has
passed over all that are in front of it; where both are there the item wins. It is exhausted just
where there is no such position: `Parser.search_lands`. -/

namespace GraphQL.Recovery

set_option autoImplicit false

variable {τ α : Type}

/-- The positions from a cursor to the end of the input, the end included. A cursor that is behind the
end has its own position only. -/
def Cursor.onward (c : Cursor τ) : Set Nat :=
  {p | c.position ≤ p ∧ p ≤ max c.position c.tokens.size}

/-- The positions from a cursor on at which a recognizer recognizes what stands there. -/
def Recognizer.places (recovery : Recognizer τ) (c : Cursor τ) : Set Nat :=
  {p | p ∈ c.onward ∧ recovery (c.moveTo p) = true}

namespace Parser

/-- The positions from a cursor on at which an item parses. -/
def places (item : Parser τ α) (itemRecovery : Recognizer τ) (c : Cursor τ) : Set Nat :=
  {p | p ∈ c.onward ∧ ∃ reading, item.parse (c.moveTo p) itemRecovery = .ok reading}

variable {item : Parser τ α} {itemRecovery recovery : Recognizer τ} {c : Cursor τ} {stop p : Nat}
  {passed : List Nat} {reading : Reading α}

/-! ## Positions that are missed -/

theorem Misses.not_mem_places (miss : item.Misses itemRecovery recovery (c.moveTo p)) :
    p ∉ item.places itemRecovery c := by
  rintro ⟨-, reading, parses⟩
  obtain ⟨e, fails⟩ := miss.1
  rw [fails] at parses
  cases parses

theorem Misses.not_mem_recovery (miss : item.Misses itemRecovery recovery (c.moveTo p)) :
    p ∉ recovery.places c := fun there => Bool.false_ne_true (miss.2.symm.trans there.2)

/-- What is passed over ends inside the input or where the cursor is. -/
theorem Passes.mem_onward (h : item.Passes itemRecovery recovery c stop passed) :
    stop ∈ c.onward := by
  refine ⟨h.le, ?_⟩
  rcases Nat.eq_or_lt_of_le h.le with here | behind
  · exact here ▸ Nat.le_max_left _ _
  · have last : stop - 1 ∈ passed := by
      rw [h.passed_eq, List.mem_range'_1]
      omega
    have inside := h.inside _ last
    omega

theorem Passes.missed (h : item.Passes itemRecovery recovery c stop passed) (le : c.position ≤ p)
    (before : p < stop) : item.Misses itemRecovery recovery (c.moveTo p) := by
  refine h.misses p ?_
  rw [h.passed_eq, List.mem_range'_1]
  omega

/-- No position in front of the stop has the item. -/
theorem Passes.le_of_places (h : item.Passes itemRecovery recovery c stop passed)
    (hp : p ∈ item.places itemRecovery c) : stop ≤ p :=
  Nat.le_of_not_lt fun before => (h.missed hp.1.1 before).not_mem_places hp

/-- Nor does one have the recovery point. -/
theorem Passes.le_of_recovery (h : item.Passes itemRecovery recovery c stop passed)
    (hp : p ∈ recovery.places c) : stop ≤ p :=
  Nat.le_of_not_lt fun before => (h.missed hp.1.1 before).not_mem_recovery hp

/-! ## Outcomes -/

/-- The item is found where it parses first, and the recovery point is not recognized before. -/
theorem least_of_found (h : item.search itemRecovery recovery c = .found reading passed) :
    ∃ p, IsLeast (item.places itemRecovery c) p ∧ (∀ r ∈ recovery.places c, p ≤ r) ∧
      item.parse (c.moveTo p) itemRecovery = .ok reading ∧
      passed = List.range' c.position (p - c.position) := by
  obtain ⟨stop, passes, parses⟩ := passes_of_found h
  exact ⟨stop, ⟨⟨passes.mem_onward, reading, parses⟩, fun _ => passes.le_of_places⟩,
    fun _ => passes.le_of_recovery, parses, passes.passed_eq⟩

/-- The search recovers where the recovery point is recognized first, and the item does not parse
there or before. -/
theorem least_of_recovered (h : item.search itemRecovery recovery c = .recovered stop passed) :
    IsLeast (recovery.places c) stop ∧ (∀ p ∈ item.places itemRecovery c, stop < p) ∧
      passed = List.range' c.position (stop - c.position) := by
  obtain ⟨passes, ⟨e, fails⟩, recognized⟩ := passes_of_recovered h
  refine ⟨⟨⟨passes.mem_onward, recognized⟩, fun _ => passes.le_of_recovery⟩, fun p hp => ?_,
    passes.passed_eq⟩
  refine Nat.lt_of_le_of_ne (passes.le_of_places hp) ?_
  rintro rfl
  obtain ⟨-, reading, parses⟩ := hp
  rw [fails] at parses
  cases parses

/-- An exhausted search has missed every position, the end of the input with them. -/
theorem missed_of_exhausted (h : item.search itemRecovery recovery c = .exhausted)
    (hp : p ∈ c.onward) : item.Misses itemRecovery recovery (c.moveTo p) := by
  have outcome := search_outcome item itemRecovery recovery c
  rw [h] at outcome
  obtain ⟨stop, passed, passes, outside, missed⟩ := outcome
  rcases Nat.lt_or_ge p stop with before | behind
  · exact passes.missed hp.1 before
  · have last : p ≤ stop := Nat.le_trans hp.2 (Nat.max_le.2 ⟨passes.le, outside⟩)
    obtain rfl := Nat.le_antisymm last behind
    exact missed

theorem empty_of_exhausted (h : item.search itemRecovery recovery c = .exhausted) :
    item.places itemRecovery c = ∅ ∧ recovery.places c = ∅ :=
  ⟨Set.eq_empty_of_forall_notMem fun _ hp => (missed_of_exhausted h hp.1).not_mem_places hp,
    Set.eq_empty_of_forall_notMem fun _ hp => (missed_of_exhausted h hp.1).not_mem_recovery hp⟩

/-- For every item, recovery points and cursor, a search ends in one of three ways, told by the
positions from the cursor to the end of the input. It finds the item at the first position where it
parses, unless the recovery point is recognized before; it recovers at the first position where the
recovery point is recognized, unless the item parses there or before; and it is exhausted if there
is neither. It has passed over the positions in front of the one where it ends, in order. -/
theorem search_lands (item : Parser τ α) (itemRecovery recovery : Recognizer τ) (c : Cursor τ) :
    (∀ reading passed, item.search itemRecovery recovery c = .found reading passed ↔
      ∃ p, IsLeast (item.places itemRecovery c) p ∧ (∀ r ∈ recovery.places c, p ≤ r) ∧
        item.parse (c.moveTo p) itemRecovery = .ok reading ∧
        passed = List.range' c.position (p - c.position)) ∧
    (∀ stop passed, item.search itemRecovery recovery c = .recovered stop passed ↔
      IsLeast (recovery.places c) stop ∧ (∀ p ∈ item.places itemRecovery c, stop < p) ∧
        passed = List.range' c.position (stop - c.position)) ∧
    (item.search itemRecovery recovery c = .exhausted ↔
      item.places itemRecovery c = ∅ ∧ recovery.places c = ∅) := by
  refine ⟨fun reading passed => ⟨least_of_found, ?_⟩, fun stop passed => ⟨least_of_recovered, ?_⟩,
    empty_of_exhausted, ?_⟩
  · rintro ⟨p, least, first, parses, rfl⟩
    cases h : item.search itemRecovery recovery c with
    | found reading' passed =>
      obtain ⟨p', least', -, parses', rfl⟩ := least_of_found h
      obtain rfl := least.unique least'
      rw [parses] at parses'
      rw [Except.ok.inj parses']
    | recovered stop passed =>
      obtain ⟨there, before, -⟩ := least_of_recovered h
      exact absurd (first stop there.1) (Nat.not_le.2 (before p least.1))
    | exhausted => exact absurd least.1 ((empty_of_exhausted h).1 ▸ Set.notMem_empty p)
  · rintro ⟨least, before, rfl⟩
    cases h : item.search itemRecovery recovery c with
    | found reading passed =>
      obtain ⟨p, there, first, -⟩ := least_of_found h
      exact absurd (before p there.1) (Nat.not_lt.2 (first stop least.1))
    | recovered stop' passed =>
      obtain ⟨least', -, rfl⟩ := least_of_recovered h
      rw [least.unique least']
    | exhausted => exact absurd least.1 ((empty_of_exhausted h).2 ▸ Set.notMem_empty stop)
  · rintro ⟨nowhere, unrecognized⟩
    cases h : item.search itemRecovery recovery c with
    | found reading passed =>
      obtain ⟨p, there, -⟩ := least_of_found h
      exact absurd there.1 (nowhere ▸ Set.notMem_empty p)
    | recovered stop passed =>
      exact absurd (least_of_recovered h).1.1 (unrecognized ▸ Set.notMem_empty stop)
    | exhausted => rfl

end Parser

end GraphQL.Recovery
