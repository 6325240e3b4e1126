import GraphQL.Proofs.Workspace.Registry

/-! # The entries of a registry

A registry *mirrors* a set of entries, each a definition of a document under a number, if it holds
these and nothing else: owners and products are those of the entries, consumers are numbers of
entries, and every definition is a consumer of whatever it refers to. Registering adds an entry,
unregistering takes one out, and tracking types changes no entry. -/

namespace GraphQL

set_option autoImplicit false

namespace Registry

/-- The registry holds the entries `E source definition id` and nothing else. -/
structure Mirrors (r : Registry) (E : Nat → Definition → Nat → Prop) : Prop where
  regular : r.graph.Regular
  below : ∀ source d id, E source d id → id < r.next
  owner : ∀ id source, r.owners.get? id = some source ↔ ∃ d, E source d id
  product : ∀ source d id, E source d id → r.graph.products.get? id = d.product?
  producer : ∀ id name, r.graph.products.get? id = some name → ∃ source d, E source d id
  consumed : ∀ source d id, E source d id → ∀ name ∈ d.consumed, id ∈ r.graph.consumersOf name
  consumer : ∀ id name, id ∈ r.graph.consumersOf name → ∃ source d, E source d id

variable {r r' : Registry} {E E' : Nat → Definition → Nat → Prop}

theorem mirrors_empty : Mirrors {} fun _ _ _ => False where
  regular := List.nodup_nil
  below := fun _ _ _ h => h.elim
  owner := fun _ _ => ⟨fun h => (nomatch h), fun ⟨_, h⟩ => h.elim⟩
  product := fun _ _ _ h => h.elim
  producer := fun _ _ h => nomatch h
  consumed := fun _ _ _ h => h.elim
  consumer := fun _ _ h => nomatch h

theorem Mirrors.congr (h : r.Mirrors E) (same : ∀ source d id, E source d id ↔ E' source d id) :
    r.Mirrors E' := by
  have e : E = E' := funext fun source => funext fun d => funext fun id => propext (same source d id)
  exact e ▸ h

/-- A number that was not given yet is unknown. -/
theorem Mirrors.unknown (h : r.Mirrors E) {id : Nat} (new : r.next ≤ id) :
    r.graph.products.get? id = none ∧ ∀ name, id ∉ r.graph.consumersOf name := by
  refine ⟨Option.eq_none_iff_forall_ne_some.2 fun name hn => ?_, fun name hc => ?_⟩
  · obtain ⟨source, d, he⟩ := h.producer id name hn
    exact Nat.not_lt.2 new (h.below source d id he)
  · obtain ⟨source, d, he⟩ := h.consumer id name hc
    exact Nat.not_lt.2 new (h.below source d id he)

/-! ## Taking entries out -/

theorem Mirrors.unregister (h : r.Mirrors E) (stale : List Nat) (gone : Nat) :
    (r.unregister stale gone).1.Mirrors fun source d id => E source d id ∧ id ≠ gone where
  regular := h.regular.remove gone
  below := fun source d id he => h.below source d id he.1
  owner := fun id source => by
    show (r.owners.erase gone).get? id = some source ↔ _
    rw [Table.get?_erase]
    by_cases hid : id = gone
    · simp [hid]
    · simp [hid, h.owner id source]
  product := fun source d id he => by
    show (r.graph.products.erase gone).get? id = _
    rw [Table.get?_erase, if_neg he.2, h.product source d id he.1]
  producer := fun id name hn => by
    have found : (r.graph.products.erase gone).get? id = some name := hn
    rw [Table.get?_erase] at found
    split at found
    · cases found
    · next other =>
      obtain ⟨source, d, he⟩ := h.producer id name found
      exact ⟨source, d, he, other⟩
  consumed := fun source d id he name hn =>
    (Graph.mem_consumersOf_remove h.regular).2 ⟨h.consumed source d id he.1 name hn, he.2⟩
  consumer := fun id name hc => by
    obtain ⟨before, other⟩ := (Graph.mem_consumersOf_remove h.regular).1 hc
    obtain ⟨source, d, he⟩ := h.consumer id name before
    exact ⟨source, d, he, other⟩

theorem Mirrors.unregisterAll (h : r.Mirrors E) (gone : List Nat) :
    (r.unregisterAll gone).1.Mirrors fun source d id => E source d id ∧ id ∉ gone := by
  unfold Registry.unregisterAll
  generalize ([] : List Nat) = stale
  induction gone generalizing r E stale with
  | nil => exact h.congr fun source d id => by simp
  | cons first gone ih =>
    exact (ih (h.unregister stale first) _).congr fun source d id => by
      rw [List.mem_cons, not_or, and_assoc]

/-! ## Putting entries in -/

theorem Mirrors.register (h : r.Mirrors E) (source : Nat) (d : Definition) (stale : List Nat) :
    (r.register source d stale).1.Mirrors fun s e id =>
      E s e id ∨ s = source ∧ e = d ∧ id = r.next where
  regular := consumeAll_regular (produced_regular d h.regular) _ _
  below := fun s e id he => by
    show id < r.next + 1
    rcases he with he | ⟨-, -, rfl⟩
    · exact Nat.lt_succ_of_lt (h.below s e id he)
    · exact Nat.lt_succ_self _
  owner := fun id s => by
    show (r.owners.insert r.next source).get? id = some s ↔ _
    rw [Table.get?_insert]
    by_cases hid : id = r.next
    · have unused : ∀ e, ¬E s e r.next := fun e he => Nat.lt_irrefl _ (h.below s e _ he)
      simp [hid, unused, eq_comm]
    · simp [hid, h.owner id s]
  product := fun s e id he => by
    show (consumeAll r.next d.consumed (r.produced d)).products.get? id = _
    rw [consumeAll_products, produced_products]
    rcases he with he | ⟨-, rfl, rfl⟩
    · rw [if_neg (Nat.ne_of_lt (h.below s e id he)), h.product s e id he]
    · rw [if_pos rfl, (h.unknown (Nat.le_refl _)).1, Option.or_none]
  producer := fun id name hn => by
    have found : (consumeAll r.next d.consumed (r.produced d)).products.get? id = some name := hn
    rw [consumeAll_products, produced_products] at found
    split at found
    · next own => exact ⟨source, d, .inr ⟨rfl, rfl, own⟩⟩
    · obtain ⟨s, e, he⟩ := h.producer id name found
      exact ⟨s, e, .inl he⟩
  consumed := fun s e id he name hn => by
    show id ∈ (consumeAll r.next d.consumed (r.produced d)).consumersOf name
    rw [mem_consumersOf_consumeAll, produced_consumersOf]
    rcases he with he | ⟨-, rfl, rfl⟩
    · exact .inl (h.consumed s e id he name hn)
    · exact .inr ⟨hn, rfl⟩
  consumer := fun id name hc => by
    have found : id ∈ (consumeAll r.next d.consumed (r.produced d)).consumersOf name := hc
    rw [mem_consumersOf_consumeAll, produced_consumersOf] at found
    rcases found with before | ⟨-, own⟩
    · obtain ⟨s, e, he⟩ := h.consumer id name before
      exact ⟨s, e, .inl he⟩
    · exact ⟨source, d, .inr ⟨rfl, rfl, own⟩⟩

theorem Mirrors.registerAll (h : r.Mirrors E) (source : Nat) (definitions : List Definition)
    (stale : List Nat) :
    (r.registerAll source definitions stale).1.Mirrors fun s d id =>
      E s d id ∨ s = source ∧ (d, id) ∈ definitions.zip (List.range' r.next definitions.length) := by
  unfold Registry.registerAll
  induction definitions generalizing r E stale with
  | nil => exact h.congr fun s d id => by simp
  | cons first definitions ih =>
    refine (ih (h.register source first stale) _).congr fun s d id => ?_
    have next : (r.register source first stale).1.next = r.next + 1 := rfl
    rw [next, List.length_cons, List.range'_succ, List.zip_cons_cons, List.mem_cons, Prod.mk.injEq,
      or_assoc, ← and_or_left]

/-! ## Consuming more -/

/-- More consumers among the numbers of entries change no entry. -/
theorem Mirrors.consumers (h : r.Mirrors E) (owners : r'.owners = r.owners)
    (products : r'.graph.products = r.graph.products) (next : r'.next = r.next)
    (regular : r'.graph.Regular)
    (kept : ∀ id name, id ∈ r.graph.consumersOf name → id ∈ r'.graph.consumersOf name)
    (known : ∀ id name, id ∈ r'.graph.consumersOf name → ∃ source d, E source d id) :
    r'.Mirrors E where
  regular := regular
  below := fun source d id he => next ▸ h.below source d id he
  owner := owners ▸ h.owner
  product := products ▸ h.product
  producer := products ▸ h.producer
  consumed := fun source d id he name hn => kept id name (h.consumed source d id he name hn)
  consumer := known

end Registry

end GraphQL
