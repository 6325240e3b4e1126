import GraphQL.Proofs.Dependency.Reach

/-! # What a walk reaches around visited keys

A walk does not go on behind keys that are visited before it starts. `Graph.LeadsAround` is
reachability by paths that avoid some keys, and `Graph.invalidate_reaches` says that a walk visits
what is reached around the visited keys. Where these are closed nothing is lost by that, and the
order of several walks does not matter. -/

namespace GraphQL

set_option autoImplicit false

namespace Graph

variable {κ δ : Type} [DecidableEq κ] [DecidableEq δ] {g : Graph κ δ} {avoided : List κ}
  {start middle key : κ}

/-! ## Paths around keys -/

/-- Edges lead from one key to the other, and none of the keys on the way, the first and the last
among them, is avoided. -/
def LeadsAround (g : Graph κ δ) (avoided : List κ) (start key : κ) : Prop :=
  start ∉ avoided ∧
    Relation.ReflTransGen (fun key other => other ∈ g.dependents key ∧ other ∉ avoided) start key

theorem LeadsAround.refl (free : start ∉ avoided) : g.LeadsAround avoided start start :=
  ⟨free, .refl⟩

theorem LeadsAround.tail (h : g.LeadsAround avoided start middle) (edge : key ∈ g.dependents middle)
    (free : key ∉ avoided) : g.LeadsAround avoided start key := ⟨h.1, h.2.tail ⟨edge, free⟩⟩

theorem LeadsAround.head (free : start ∉ avoided) (edge : middle ∈ g.dependents start)
    (h : g.LeadsAround avoided middle key) : g.LeadsAround avoided start key :=
  ⟨free, h.2.head ⟨edge, h.1⟩⟩

theorem LeadsAround.leads (h : g.LeadsAround avoided start key) : g.Leads start key :=
  Relation.ReflTransGen.mono (fun _ _ step => step.1) _ _ h.2

/-- With fewer keys to avoid there are no fewer paths. -/
theorem LeadsAround.anti {fewer : List κ} (sub : fewer ⊆ avoided)
    (h : g.LeadsAround avoided start key) : g.LeadsAround fewer start key :=
  ⟨fun hs => h.1 (sub hs),
    Relation.ReflTransGen.mono (fun _ _ step => ⟨step.1, fun ho => step.2 (sub ho)⟩) _ _ h.2⟩

/-- A path avoids one key more, or what follows its last visit to that key does. -/
theorem LeadsAround.cut (h : g.LeadsAround avoided start key) (cut : κ) :
    g.LeadsAround (avoided ++ [cut]) start key ∨ key = cut ∨
      ∃ next ∈ g.dependents cut, g.LeadsAround (avoided ++ [cut]) next key := by
  have still {k : κ} (free : k ∉ avoided) (other : k ≠ cut) : k ∉ avoided ++ [cut] := by
    simp [free, other]
  obtain ⟨free, path⟩ := h
  induction path with
  | refl =>
    by_cases own : start = cut
    · exact .inr (.inl own)
    · exact .inl (.refl (still free own))
  | @tail middle last _ step ih =>
    by_cases own : last = cut
    · exact .inr (.inl own)
    have away := still step.2 own
    rcases ih with around | rfl | ⟨next, edge, around⟩
    · exact .inl (around.tail step.1 away)
    · exact .inr (.inr ⟨last, step.1, .refl away⟩)
    · exact .inr (.inr ⟨next, edge, around.tail step.1 away⟩)

/-- Where the avoided keys are closed, paths to other keys avoid them anyway. -/
theorem Closed.leadsAround (closed : g.Closed avoided) (leads : g.Leads start key)
    (free : key ∉ avoided) : g.LeadsAround avoided start key := by
  induction leads with
  | refl => exact .refl free
  | @tail middle last _ edge ih =>
    have away : middle ∉ avoided := fun there => free (closed middle there last edge)
    exact (ih away).tail edge free

/-! ## Walks -/

variable (g)

/-- A walk visits what the pending keys lead to around the visited ones, and nothing else. -/
theorem mem_walk_iff {visited pending : List κ} :
    key ∈ g.walk visited pending ↔
      key ∈ visited ∨ ∃ start ∈ pending, g.LeadsAround visited start key := by
  fun_induction walk g visited pending with
  | case1 => simp
  | case2 visited k pending hk ih =>
    rw [ih]
    refine or_congr_right ⟨?_, ?_⟩
    · rintro ⟨start, hs, around⟩
      exact ⟨start, List.mem_cons_of_mem k hs, around⟩
    · rintro ⟨start, hs, around⟩
      rcases List.mem_cons.1 hs with rfl | hs
      · exact absurd hk around.1
      · exact ⟨start, hs, around⟩
  | case3 visited k pending hk ih =>
    have fewer : visited ⊆ visited ++ [k] := List.subset_append_left visited [k]
    have mem_next (next : κ) (edge : next ∈ g.dependents k) :
        next ∈ (g.dependents k).reverse ++ pending :=
      List.mem_append_left pending (List.mem_reverse.2 edge)
    rw [ih]
    constructor
    · rintro (there | ⟨start, hs, around⟩)
      · rcases List.mem_append.1 there with there | own
        · exact .inl there
        · obtain rfl := List.mem_singleton.1 own
          exact .inr ⟨key, List.mem_cons_self, .refl hk⟩
      · rcases List.mem_append.1 hs with edge | hs
        · have edge := List.mem_reverse.1 edge
          exact .inr ⟨k, List.mem_cons_self, .head hk edge (around.anti fewer)⟩
        · exact .inr ⟨start, List.mem_cons_of_mem k hs, around.anti fewer⟩
    · rintro (there | ⟨start, hs, around⟩)
      · exact .inl (List.mem_append_left [k] there)
      -- the path is followed from where it leaves the visited key for the last time
      rcases around.cut k with around | rfl | ⟨next, edge, around⟩
      · rcases List.mem_cons.1 hs with rfl | hs
        · exact absurd (List.mem_append_right visited List.mem_cons_self) around.1
        · exact .inr ⟨start, List.mem_append_right _ hs, around⟩
      · exact .inl (List.mem_append_right visited List.mem_cons_self)
      · exact .inr ⟨next, mem_next next edge, around⟩

theorem mem_invalidate_iff {visited : List κ} :
    key ∈ g.invalidate start visited ↔ key ∈ visited ∨ g.LeadsAround visited start key := by
  rw [invalidate, mem_walk_iff]
  simp

theorem invalidate_of_mem {visited : List κ} (h : start ∈ visited) :
    g.invalidate start visited = visited := by
  rw [invalidate, walk, if_pos h, walk]

variable {g}

theorem Closed.mem_invalidate_iff {visited : List κ} (closed : g.Closed visited) :
    key ∈ g.invalidate start visited ↔ key ∈ visited ∨ g.Leads start key := by
  rw [Graph.mem_invalidate_iff]
  by_cases there : key ∈ visited
  · simp [there]
  · exact or_congr_right ⟨LeadsAround.leads, fun leads => closed.leadsAround leads there⟩

/-- Several walks from closed keys visit what any of the starts leads to. -/
theorem Closed.mem_invalidateAll_iff {visited : List κ} (closed : g.Closed visited)
    (starts : List κ) :
    key ∈ starts.foldl (fun visited start => g.invalidate start visited) visited ↔
      key ∈ visited ∨ ∃ start ∈ starts, g.Leads start key := by
  induction starts generalizing visited with
  | nil => simp
  | cons start starts ih =>
    rw [List.foldl_cons, ih (g.invalidate_closed closed start), closed.mem_invalidate_iff, or_assoc]
    simp

/-- A walk adds to the visited keys what its start leads to around them. A start that is visited
adds nothing. Where the visited keys are closed, all is added that the start leads to, so that
several walks visit the same keys in every order. -/
theorem invalidate_reaches (g : Graph κ δ) (visited : List κ) :
    (∀ start key, key ∈ g.invalidate start visited ↔
      key ∈ visited ∨ g.LeadsAround visited start key) ∧
    (∀ start ∈ visited, g.invalidate start visited = visited) ∧
    (g.Closed visited →
      (∀ start key, key ∈ g.invalidate start visited ↔ key ∈ visited ∨ g.Leads start key) ∧
      ∀ (starts : List κ) (key : κ),
        (key ∈ starts.foldl (fun visited start => g.invalidate start visited) visited ↔
          key ∈ visited ∨ ∃ start ∈ starts, g.Leads start key) ∧
        ∀ order : List κ, order.Perm starts →
          (key ∈ order.foldl (fun visited start => g.invalidate start visited) visited ↔
            key ∈ starts.foldl (fun visited start => g.invalidate start visited) visited)) := by
  refine ⟨fun start key => g.mem_invalidate_iff, fun start h => g.invalidate_of_mem h,
    fun closed => ⟨fun start key => closed.mem_invalidate_iff, fun starts key =>
      ⟨closed.mem_invalidateAll_iff starts, fun order same => ?_⟩⟩⟩
  rw [closed.mem_invalidateAll_iff, closed.mem_invalidateAll_iff]
  simp only [same.mem_iff]

/-- Two keys that depend on each other, one before them, and one behind them that depends on
itself. -/
def cycle : Graph Nat Nat :=
  [(0, 1), (1, 0), (2, 1), (2, 2), (0, 3)].foldl (fun g edge => g.consume edge.1 edge.2)
    ([0, 1, 2, 3].foldl (fun g key => g.produce key key) {})

/-- A visited key that is not closed hides what is behind it; a closed one does not, and two walks
around it visit the same in both orders. -/
theorem cycle_reaches :
    ((∀ key, key ∈ cycle.invalidate 3 [1] ↔ key ∈ [1] ∨ cycle.LeadsAround [1] 3 key) ∧
      cycle.invalidate 3 [1] = [1, 3, 0] ∧ cycle.Leads 3 2) ∧
    (1 ∈ [1] ∧ cycle.invalidate 1 [1] = [1]) ∧
    (cycle.Closed [2] ∧ [3, 0].Perm [0, 3] ∧
      (∀ key, key ∈ cycle.invalidate 3 [2] ↔ key ∈ [2] ∨ cycle.Leads 3 key) ∧
      ∀ key, key ∈ cycle.invalidate 0 (cycle.invalidate 3 [2]) ↔
        key ∈ cycle.invalidate 3 (cycle.invalidate 0 [2])) := by
  have open_walk := invalidate_reaches cycle [1]
  have closed : cycle.Closed [2] := by unfold Closed; decide
  have swapped : [3, 0].Perm [0, 3] := .swap 0 3 []
  have closed_walk := (invalidate_reaches cycle [2]).2.2 closed
  have toCycle : cycle.Leads 3 1 :=
    (Relation.ReflTransGen.single (b := 0) (by decide)).tail (by decide)
  have hidden : cycle.Leads 3 2 := toCycle.tail (by decide)
  exact ⟨⟨open_walk.1 3, by decide +kernel, hidden⟩, ⟨by decide, open_walk.2.1 1 (by decide)⟩,
    closed, swapped, closed_walk.1 3, fun key => (closed_walk.2 [0, 3] key).2 [3, 0] swapped⟩

end Graph

end GraphQL
