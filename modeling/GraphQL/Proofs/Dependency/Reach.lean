import Mathlib.Logic.Relation
import GraphQL.Proofs.Dependency.Closure

/-! # What is reached while a graph changes

An edit walks the graph of dependencies while it changes it: keys are dropped between walks, and new
ones come in. All walks share what they have visited. `Graph.Spreading` is what holds of the visited
keys in the course of this, told by the graph `before` the edit: of the keys that are in that graph,
visited are only those to which some seed leads there, and together with a key all that depends on it
there. Each step keeps it:

* `Spreading.invalidate`, a walk from a seed or from a new key,
* `Spreading.remove`, dropping a key that is visited,
* `Spreading.produce` and `Spreading.consume`, a new key.

`Spreading.visited_iff` reads off which keys are visited once all seeds are. -/

namespace GraphQL

set_option autoImplicit false

namespace Graph

variable {κ δ : Type} [DecidableEq κ] [DecidableEq δ]

/-- Edges lead from one key to the other, through any number of keys. -/
def Leads (g : Graph κ δ) : κ → κ → Prop :=
  Relation.ReflTransGen fun key other => other ∈ g.dependents key

/-- A walk visits what the pending keys lead to. -/
theorem leads_of_mem_walk {g : Graph κ δ} {visited pending : List κ} {key : κ}
    (h : key ∈ g.walk visited pending) :
    key ∈ visited ∨ ∃ start ∈ pending, g.Leads start key := by
  fun_induction walk g visited pending with
  | case1 => exact .inl h
  | case2 visited k pending hk ih =>
    rcases ih h with h | ⟨start, hs, leads⟩
    · exact .inl h
    · exact .inr ⟨start, List.mem_cons_of_mem k hs, leads⟩
  | case3 visited k pending hk ih =>
    rcases ih h with h | ⟨start, hs, leads⟩
    · rcases List.mem_append.1 h with h | h
      · exact .inl h
      · rw [List.mem_singleton] at h
        exact .inr ⟨k, List.mem_cons_self, h ▸ .refl⟩
    · rcases List.mem_append.1 hs with hs | hs
      · exact .inr ⟨k, List.mem_cons_self, .head (List.mem_reverse.1 hs) leads⟩
      · exact .inr ⟨start, List.mem_cons_of_mem k hs, leads⟩

theorem leads_of_mem_invalidate {g : Graph κ δ} {visited : List κ} {start key : κ}
    (h : key ∈ g.invalidate start visited) : key ∈ visited ∨ g.Leads start key :=
  (leads_of_mem_walk h).imp_right fun ⟨_, hs, leads⟩ => List.mem_singleton.1 hs ▸ leads

/-- What holds of the visited keys, of those that a walk starts from and of all dependents holds of
every key that is visited behind it. -/
theorem forall_mem_invalidate {g : Graph κ δ} {P : κ → Prop} {visited : List κ} {start : κ}
    (hv : ∀ key ∈ visited, P key) (hs : P start)
    (hd : ∀ key other, other ∈ g.dependents key → P other) :
    ∀ key ∈ g.invalidate start visited, P key := by
  intro key hk
  rcases leads_of_mem_invalidate hk with hk | leads
  · exact hv key hk
  · cases leads with
    | refl => exact hs
    | tail _ edge => exact hd _ key edge

theorem forall_mem_invalidateAll {g : Graph κ δ} {P : κ → Prop} {visited starts : List κ}
    (hv : ∀ key ∈ visited, P key) (hs : ∀ start ∈ starts, P start)
    (hd : ∀ key other, other ∈ g.dependents key → P other) :
    ∀ key ∈ starts.foldl (fun visited start => g.invalidate start visited) visited, P key := by
  induction starts generalizing visited with
  | nil => exact hv
  | cons start starts ih =>
    rw [List.forall_mem_cons] at hs
    exact ih (forall_mem_invalidate hv hs.1 hd) hs.2

/-- Closed keys hold all that they lead to. -/
theorem Closed.mem_of_leads {g : Graph κ δ} {keys : List κ} (closed : g.Closed keys) {start key : κ}
    (hs : start ∈ keys) (leads : g.Leads start key) : key ∈ keys := by
  induction leads with
  | refl => exact hs
  | tail _ edge ih => exact closed _ ih _ edge

theorem mem_dependents_remove {g : Graph κ δ} (regular : g.Regular) {gone key other : κ}
    (h : other ∈ g.dependents key) (hk : key ≠ gone) (ho : other ≠ gone) :
    other ∈ (g.remove gone).dependents key := by
  obtain ⟨value, produced, consumes⟩ := mem_dependents.1 h
  refine mem_dependents.2 ⟨value, ?_, (mem_consumersOf_remove regular).2 ⟨consumes, ho⟩⟩
  rw [remove, Table.get?_erase, if_neg hk, produced]

theorem mem_dependents_produce {g : Graph κ δ} {new key other : κ} {value : δ} :
    other ∈ (g.produce new value).dependents key ↔
      if key = new then other ∈ g.consumersOf value else other ∈ g.dependents key := by
  rw [mem_dependents, produce, Table.get?_insert]
  split
  · simp [consumersOf]
  · rw [mem_dependents]
    rfl

theorem mem_dependents_consume {g : Graph κ δ} {new key other : κ} {value : δ}
    (h : other ∈ (g.consume new value).dependents key) :
    other ∈ g.dependents key ∨ other = new := by
  obtain ⟨v, produced, consumes⟩ := mem_dependents.1 h
  rcases mem_consumersOf_consume.1 consumes with consumes | ⟨-, own⟩
  · exact .inl (mem_dependents.2 ⟨v, produced, consumes⟩)
  · exact .inr own

theorem mem_dependents_consume_of_mem {g : Graph κ δ} {new key other : κ} {value : δ}
    (h : other ∈ g.dependents key) : other ∈ (g.consume new value).dependents key :=
  have ⟨v, produced, consumes⟩ := mem_dependents.1 h
  mem_dependents.2 ⟨v, produced, mem_consumersOf_consume.2 (.inl consumes)⟩

/-! ## The invariant -/

/-- The edges of a graph run between `old` keys. -/
def Within (old : κ → Prop) (g : Graph κ δ) : Prop :=
  ∀ key other, other ∈ g.dependents key → old key ∧ old other

theorem Within.remove {old : κ → Prop} {g : Graph κ δ} (h : g.Within old) (regular : g.Regular)
    (gone : κ) : (g.remove gone).Within old :=
  fun key other ho => h key other (dependents_remove regular ho)

/-- What is visited in the course of an edit, by the graph before it. The graph has the edges and
consumers of the one before, up to those of visited keys; its other edges lead to seeds or new
keys. -/
structure Spreading (before : Graph κ δ) (old seed : κ → Prop) (g : Graph κ δ)
    (visited : List κ) : Prop where
  known : ∀ key value, key ∈ g.consumersOf value → old key → key ∈ before.consumersOf value
  kept : ∀ key value, key ∈ before.consumersOf value → key ∈ g.consumersOf value ∨ key ∈ visited
  edge : ∀ key other, other ∈ g.dependents key → old other →
    other ∈ before.dependents key ∨ seed other
  edges : ∀ key other, other ∈ before.dependents key → other ∈ g.dependents key ∨ other ∈ visited
  /-- With a key, whatever depends on it is visited. -/
  closed : before.Closed visited
  upToNew : g.ClosedUpTo (fun key => ¬old key) visited
  /-- Seeds lead to every visited key. -/
  reached : ∀ key ∈ visited, old key → ∃ start, seed start ∧ before.Leads start key

variable {before g : Graph κ δ} {old seed : κ → Prop} {visited : List κ}

theorem spreading_start (before : Graph κ δ) (old seed : κ → Prop) :
    Spreading before old seed before [] where
  known := fun _ _ h _ => h
  kept := fun _ _ h => .inl h
  edge := fun _ _ h _ => .inl h
  edges := fun _ _ h => .inl h
  closed := fun _ h => nomatch h
  upToNew := fun _ h => nomatch h
  reached := fun _ h => nomatch h

/-- Where edges of the present graph lead from a seed or a new key, edges of the one before led from
a seed, unless they lead to a new key. -/
theorem Spreading.reached_of_leads (h : Spreading before old seed g visited)
    (within : before.Within old) {start key : κ} (hs : old start → seed start)
    (leads : g.Leads start key) (hold : old key) : ∃ start, seed start ∧ before.Leads start key := by
  induction leads with
  | refl => exact ⟨start, hs hold, .refl⟩
  | @tail middle last _ edge ih =>
    rcases h.edge middle last edge hold with there | here
    · obtain ⟨first, hf, leads⟩ := ih (within middle last there).1
      exact ⟨first, hf, leads.tail there⟩
    · exact ⟨last, here, .refl⟩

/-- A walk from a seed or a new key. -/
theorem Spreading.invalidate (h : Spreading before old seed g visited) (within : before.Within old)
    {start : κ} (hs : old start → seed start) :
    Spreading before old seed g (g.invalidate start visited) := by
  have upToNew := g.invalidate_closedUpTo h.upToNew start
  have grown : ∀ key ∈ visited, key ∈ g.invalidate start visited :=
    fun _ hk => g.mem_invalidate_of_mem hk
  refine ⟨h.known, fun key value hk => (h.kept key value hk).imp_right (grown key), h.edge,
    fun key other ho => (h.edges key other ho).imp_right (grown other), ?_, upToNew, ?_⟩
  · intro key hk other ho
    rcases h.edges key other ho with present | there
    · exact (upToNew key hk other present).resolve_right fun new => new (within key other ho).2
    · exact grown other there
  · intro key hk hold
    rcases leads_of_mem_invalidate hk with hk | leads
    · exact h.reached key hk hold
    · exact h.reached_of_leads within hs leads hold

theorem Spreading.invalidateAll (h : Spreading before old seed g visited)
    (within : before.Within old) {starts : List κ} (hs : ∀ start ∈ starts, old start → seed start) :
    Spreading before old seed g
      (starts.foldl (fun visited start => g.invalidate start visited) visited) := by
  induction starts generalizing visited with
  | nil => exact h
  | cons start starts ih =>
    rw [List.forall_mem_cons] at hs
    exact ih (h.invalidate within hs.1) hs.2

/-- Dropping a visited key. -/
theorem Spreading.remove (h : Spreading before old seed g visited) (regular : g.Regular) {gone : κ}
    (hg : gone ∈ visited) : Spreading before old seed (g.remove gone) visited where
  known := fun key value hk => h.known key value ((mem_consumersOf_remove regular).1 hk).1
  kept := fun key value hk => by
    rcases h.kept key value hk with hk | hk
    · by_cases own : key = gone
      · exact .inr (own ▸ hg)
      · exact .inl ((mem_consumersOf_remove regular).2 ⟨hk, own⟩)
    · exact .inr hk
  edge := fun key other ho => h.edge key other (dependents_remove regular ho)
  edges := fun key other ho => by
    rcases h.edges key other ho with present | there
    · by_cases own : other = gone
      · exact .inr (own ▸ hg)
      · by_cases from_gone : key = gone
        · exact .inr (h.closed key (from_gone ▸ hg) other ho)
        · exact .inl (mem_dependents_remove regular present from_gone own)
    · exact .inr there
  closed := h.closed
  upToNew := fun key hk other ho => h.upToNew key hk other (dependents_remove regular ho)
  reached := h.reached

/-- A new key that produces a value; who consumed it is a seed. -/
theorem Spreading.produce (h : Spreading before old seed g visited) (within : before.Within old)
    {new : κ} (fresh : ¬old new) (unvisited : new ∉ visited) {value : δ}
    (seeds : ∀ key ∈ before.consumersOf value, seed key) :
    Spreading before old seed (g.produce new value) visited where
  known := h.known
  kept := h.kept
  edge := fun key other ho hold => by
    rw [mem_dependents_produce] at ho
    split at ho
    · exact .inr (seeds other (h.known other value ho hold))
    · exact h.edge key other ho hold
  edges := fun key other ho => by
    have other_key : key ≠ new := fun own => fresh (own ▸ (within key other ho).1)
    rw [mem_dependents_produce, if_neg other_key]
    exact h.edges key other ho
  closed := h.closed
  upToNew := fun key hk other ho => by
    have other_key : key ≠ new := fun own => unvisited (own ▸ hk)
    rw [mem_dependents_produce, if_neg other_key] at ho
    exact h.upToNew key hk other ho
  reached := h.reached

/-- A new key that consumes a value. -/
theorem Spreading.consume (h : Spreading before old seed g visited) {new : κ} (fresh : ¬old new)
    (value : δ) : Spreading before old seed (g.consume new value) visited where
  known := fun key v hk hold => by
    rcases mem_consumersOf_consume.1 hk with hk | ⟨-, own⟩
    · exact h.known key v hk hold
    · exact absurd (own ▸ hold) fresh
  kept := fun key v hk => (h.kept key v hk).imp_left fun hk => mem_consumersOf_consume.2 (.inl hk)
  edge := fun key other ho hold => by
    rcases mem_dependents_consume ho with ho | own
    · exact h.edge key other ho hold
    · exact absurd (own ▸ hold) fresh
  edges := fun key other ho => (h.edges key other ho).imp_left mem_dependents_consume_of_mem
  closed := h.closed
  upToNew := fun key hk other ho => by
    rcases mem_dependents_consume ho with ho | rfl
    · exact h.upToNew key hk other ho
    · exact .inr fresh
  reached := h.reached

/-- Once all seeds are visited, the visited keys are those to which seeds led, up to new keys. -/
theorem Spreading.visited_iff (h : Spreading before old seed g visited)
    (all : ∀ key, seed key → key ∈ visited) {key : κ} (hold : old key) :
    key ∈ visited ↔ ∃ start, seed start ∧ before.Leads start key := by
  refine ⟨fun hk => h.reached key hk hold, ?_⟩
  rintro ⟨start, hs, leads⟩
  exact h.closed.mem_of_leads (all start hs) leads

end Graph

end GraphQL
