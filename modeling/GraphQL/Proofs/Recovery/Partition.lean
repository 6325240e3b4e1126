import Mathlib.Data.List.SplitBy
import GraphQL.Proofs.Recovery.Accounting

/-! # Leaves and unrecognized runs

A parse that accounts for its stretch and stops at some position leaves the rest of the buffer
unaccounted, together with what it passed over. `Partition` says that leaves and runs of
unaccounted tokens share out the whole buffer, and that the runs are as long as they can be.

* `Blocks` holds of the maximal blocks of neighbours in an increasing list of positions,
* `Accounts.partition`: what a parse from the start of a buffer leaves. -/

namespace GraphQL.Recovery

set_option autoImplicit false

variable {τ μ : Type}

/-! ## Blocks of neighbours -/

/-- The maximal blocks of consecutive positions in an increasing list. -/
structure Blocks (positions : List Nat) (blocks : List (List Nat)) : Prop where
  flatten_eq : blocks.flatten = positions
  increasing : positions.Pairwise (· < ·)
  ne_nil : ∀ b ∈ blocks, b ≠ []
  consecutive : ∀ b ∈ blocks, ∃ start, b = List.range' start b.length
  maximal : ∀ b ∈ blocks, ∀ i ∈ b, ∀ j ∈ positions, j = i + 1 ∨ i = j + 1 → j ∈ b

theorem range'_of_isChain (p : Nat) (rest : List Nat)
    (h : (p :: rest).IsChain fun p q => (q == p + 1) = true) :
    p :: rest = List.range' p (rest.length + 1) := by
  induction rest generalizing p with
  | nil => rfl
  | cons q rest ih =>
    rw [List.isChain_cons_cons] at h
    have hq : q = p + 1 := by simpa using h.1
    subst hq
    rw [List.range'_succ, List.length_cons, ← ih (p + 1) h.2]

/-- Where a block ends its neighbour is not in the next one. -/
def Separated (blocks : List (List Nat)) : Prop :=
  blocks.IsChain fun a b => ∃ ha hb, (b.head hb == a.getLast ha + 1) = false

/-- All positions behind the first block are further on than right behind one in it: that block ends
no earlier, the next one begins no later, and the two are not neighbours. -/
theorem Separated.apart {first : List Nat} {rest : List (List Nat)} (h : Separated (first :: rest))
    (increasing : (first ++ rest.flatten).Pairwise (· < ·)) {i j : Nat} (hi : i ∈ first)
    (hj : j ∈ rest.flatten) : i + 1 < j := by
  obtain ⟨inFirst, inRest, across⟩ := List.pairwise_append.1 increasing
  cases rest with
  | nil => cases hj
  | cons next rest =>
    obtain ⟨some, some', gap⟩ := (List.isChain_cons_cons.1 h).1
    have begins : next.head some' ∈ (next :: rest).flatten :=
      List.mem_flatten.2 ⟨next, List.mem_cons_self, List.head_mem some'⟩
    have last : i ≤ first.getLast some := (inFirst.imp Nat.le_of_lt).rel_getLast hi
    have head : next.head some' ≤ j := by
      have least := (inRest.imp Nat.le_of_lt).rel_head hj
      rwa [← List.head_head_eq_head_flatten (List.cons_ne_nil next rest) some'] at least
    have between := across _ (List.getLast_mem some) _ begins
    rw [beq_eq_false_iff_ne] at gap
    omega

/-- A neighbour of a position in one of the blocks is in that block. -/
theorem Separated.maximal {blocks : List (List Nat)} (h : Separated blocks)
    (increasing : blocks.flatten.Pairwise (· < ·)) :
    ∀ b ∈ blocks, ∀ i ∈ b, ∀ j ∈ blocks.flatten, j = i + 1 ∨ i = j + 1 → j ∈ b := by
  induction blocks with
  | nil => exact fun b hb => nomatch hb
  | cons first rest ih =>
    intro b hb i hi j hj neighbours
    rw [List.flatten_cons] at increasing hj
    obtain rfl | hb := List.mem_cons.1 hb
    · refine (List.mem_append.1 hj).resolve_right fun hj => ?_
      have := h.apart increasing hi hj
      omega
    · obtain hj | hj := List.mem_append.1 hj
      · have := h.apart increasing hj (List.mem_flatten.2 ⟨b, hb, hi⟩)
        omega
      · exact ih h.tail (List.pairwise_append.1 increasing).2.1 b hb i hi j hj neighbours

theorem blocks_splitBy {positions : List Nat} (h : positions.Pairwise (· < ·)) :
    Blocks positions (positions.splitBy fun p q => q == p + 1) where
  flatten_eq := List.flatten_splitBy _ _
  increasing := h
  ne_nil := fun _ hb => List.ne_nil_of_mem_splitBy hb
  consecutive := by
    intro b hb
    have chain := List.isChain_of_mem_splitBy hb
    cases b with
    | nil => exact absurd rfl (List.ne_nil_of_mem_splitBy hb)
    | cons p rest => exact ⟨p, range'_of_isChain p rest chain⟩
  maximal := by
    have flat := List.flatten_splitBy (fun p q => q == p + 1) positions
    have separated : Separated (positions.splitBy fun p q => q == p + 1) :=
      List.isChain_getLast_head_splitBy (fun p q => q == p + 1) positions
    have hm := separated.maximal (by rw [flat]; exact h)
    rw [flat] at hm
    exact hm

/-! ## Sharing out a buffer -/

/-- Leaves, in order, stand at `places`, and runs of unrecognized tokens at `blocks`; every position
of the buffer is in one of the two and only once. -/
structure Partition [HasSpan τ] (tokens : Array τ) (leaves : List τ) (runs : List (Run τ))
    (places : List Nat) (blocks : List (List Nat)) : Prop where
  leaves_eq : leaves = places.filterMap (tokens[·]?)
  places_increasing : places.Pairwise (· < ·)
  runs_eq : runs = blocks.map (Cursor.start tokens).run
  blocks_maximal : Blocks blocks.flatten blocks
  once : (places ++ blocks.flatten).Perm (List.range tokens.size)

namespace Accounts

variable [HasSpan τ] {legal : τ → Prop} {tokens : Array τ} {p q : Nat} {passed : List Nat}
  {marks : List (Mark τ μ)}

theorem passed_mem (h : Accounts legal tokens p q passed marks) :
    ∀ i ∈ passed, p ≤ i ∧ i < q := by
  induction h with
  | done p => simp
  | keep _ _ rest ih =>
    intro i hi
    have := ih i hi
    omega
  | @pass p q _ _ _ rest ih =>
    intro i hi
    rcases List.mem_cons.1 hi with rfl | hi
    · have := rest.le
      omega
    · have := ih i hi
      omega
  | lack _ _ ih => exact ih

theorem passed_increasing (h : Accounts legal tokens p q passed marks) :
    passed.Pairwise (· < ·) := by
  induction h with
  | done p => exact .nil
  | keep _ _ _ ih => exact ih
  | pass _ rest ih => exact .cons (fun i hi => (rest.passed_mem i hi).1) ih
  | lack _ _ ih => exact ih

/-- The leaves are the tokens at the positions of the stretch that are not passed over. -/
theorem leaves_eq (h : Accounts legal tokens p q passed marks) :
    (marks.filterMap Mark.leaf?).map some =
      ((List.range' p (q - p)).filter fun i => !passed.contains i).map (tokens[·]?) := by
  induction h with
  | done p => rw [Nat.sub_self]; rfl
  | @keep p q passed marks t here _ rest ih =>
    have inside : q - p = (q - (p + 1)) + 1 := by have := rest.le; omega
    have kept : passed.contains p = false := by
      refine List.contains_eq_mem p passed ▸ decide_eq_false fun hp => ?_
      have := rest.passed_mem p hp
      omega
    rw [inside, List.range'_succ, List.filter_cons, kept]
    simp [Mark.leaf?, here, ih]
  | @pass p q passed marks _ rest ih =>
    have inside : q - p = (q - (p + 1)) + 1 := by have := rest.le; omega
    have others : ∀ i ∈ List.range' (p + 1) (q - (p + 1)),
        (!(p :: passed).contains i) = !passed.contains i := by
      intro i hi
      have : p < i := (List.mem_range'_1.1 hi).1
      simp [Nat.ne_of_gt this]
    rw [ih, inside, List.range'_succ, List.filter_cons, List.filter_congr others]
    simp
  | lack _ _ ih => exact ih

/-- The positions of the leaves: those that are not passed over. -/
theorem places (h : Accounts legal tokens p q passed marks) :
    ∃ kept : List Nat, kept.Pairwise (· < ·) ∧ (∀ i, i ∈ kept ↔ p ≤ i ∧ i < q ∧ i ∉ passed) ∧
      marks.filterMap Mark.leaf? = kept.filterMap (tokens[·]?) := by
  induction h with
  | done p => exact ⟨[], by simp, by simp, rfl⟩
  | @keep p q passed marks t here _ rest ih =>
    obtain ⟨kept, inc, mem, eq⟩ := ih
    have hp : p ∉ passed := fun hi => by
      have := rest.passed_mem p hi
      omega
    have hq := rest.le
    refine ⟨p :: kept, ?_, ?_, ?_⟩
    · refine List.pairwise_cons.2 ⟨fun i hi => ?_, inc⟩
      have := (mem i).1 hi
      omega
    · intro i
      rw [List.mem_cons, mem]
      constructor
      · rintro (rfl | ⟨h1, h2, h3⟩)
        · exact ⟨Nat.le_refl _, by omega, hp⟩
        · exact ⟨by omega, h2, h3⟩
      · rintro ⟨h1, h2, h3⟩
        rcases Nat.eq_or_lt_of_le h1 with rfl | h1
        · exact .inl rfl
        · exact .inr ⟨h1, h2, h3⟩
    · simp [Mark.leaf?, here, eq]
  | @pass p q passed marks here rest ih =>
    obtain ⟨kept, inc, mem, eq⟩ := ih
    refine ⟨kept, inc, fun i => ?_, eq⟩
    rw [mem, List.mem_cons]
    constructor
    · rintro ⟨h1, h2, h3⟩
      exact ⟨by omega, h2, fun h => h.elim (by omega) h3⟩
    · rintro ⟨h1, h2, h3⟩
      exact ⟨by rcases Nat.eq_or_lt_of_le h1 with rfl | h1
                · exact absurd (.inl rfl) h3
                · exact h1, h2, fun h => h3 (.inr h)⟩
  | lack _ _ ih => simpa [Mark.leaf?, List.filterMap_cons] using ih

/-- Leaves and runs share out the buffer. -/
theorem partition {skipped : List Nat} (h : Accounts legal tokens 0 q passed marks)
    (same : passed.Perm skipped) :
    ∃ places blocks, Partition tokens (marks.filterMap Mark.leaf?)
      (Cursor.runs ⟨tokens, q⟩ skipped) places blocks := by
  obtain ⟨kept, inc, mem, eq⟩ := h.places
  have hsize : q ≤ tokens.size := h.le_size (Nat.zero_le _)
  let rest := Cursor.unaccounted ⟨tokens, q⟩ skipped
  have hrest : ∀ i, i ∈ rest ↔ i < tokens.size ∧ (q ≤ i ∨ i ∈ passed) := by
    intro i
    simp [rest, Cursor.unaccounted, same.mem_iff]
  have sorted : rest.Pairwise (· < ·) := List.pairwise_lt_range.filter _
  have hb := blocks_splitBy sorted
  refine ⟨kept, rest.splitBy fun p q => q == p + 1, eq, inc, rfl, by rw [hb.flatten_eq]; exact hb, ?_⟩
  rw [hb.flatten_eq, List.perm_ext_iff_of_nodup _ List.nodup_range]
  · intro i
    rw [List.mem_append, mem, hrest, List.mem_range]
    constructor
    · rintro (⟨-, h2, -⟩ | ⟨h1, -⟩) <;> omega
    · intro hi
      by_cases hp : i ∈ passed
      · exact .inr ⟨hi, .inr hp⟩
      · rcases Nat.lt_or_ge i q with hq | hq
        · exact .inl ⟨Nat.zero_le _, hq, hp⟩
        · exact .inr ⟨hi, .inl hq⟩
  · rw [List.nodup_append]
    refine ⟨inc.imp Nat.ne_of_lt, sorted.imp Nat.ne_of_lt, ?_⟩
    intro i hi j hj hij
    subst hij
    obtain ⟨-, h2, h3⟩ := (mem i).1 hi
    obtain ⟨-, h4⟩ := (hrest i).1 hj
    rcases h4 with h4 | h4
    · omega
    · exact h3 h4

theorem leaves_legal (h : Accounts legal tokens p q passed marks) :
    ∀ t ∈ marks.filterMap Mark.leaf?, legal t := by
  induction h with
  | done p => simp
  | keep here ok _ ih => simpa [Mark.leaf?, ok] using ih
  | pass _ _ ih => exact ih
  | lack _ _ ih => simpa [Mark.leaf?, List.filterMap_cons] using ih

end Accounts

end GraphQL.Recovery
