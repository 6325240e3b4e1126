import GraphQL.Proofs.Dependency.Closure
import GraphQL.Workspace.Registry

/-! # What registering changes

An edit drops the definitions of the old version of a document and registers those of the new one.
Nothing else that is registered changes, and every other definition is stale that consumes what a
dropped or a new one provides:

* `Registry.Dropped` and `Registry.unregisterAll_dropped`,
* `Registry.Added` and `Registry.registerAll_added`. -/

namespace GraphQL

set_option autoImplicit false

namespace Registry

/-- The definitions outside `ids` are registered alike. -/
structure SameBut (ids : List Nat) (r r' : Registry) : Prop where
  owners : ∀ id ∉ ids, r'.owners.get? id = r.owners.get? id
  products : ∀ id ∉ ids, r'.graph.products.get? id = r.graph.products.get? id
  consumers : ∀ id ∉ ids, ∀ name, id ∈ r'.graph.consumersOf name ↔ id ∈ r.graph.consumersOf name

theorem SameBut.trans {ids : List Nat} {r r' r'' : Registry} (h : SameBut ids r r')
    (h' : SameBut ids r' r'') : SameBut ids r r'' where
  owners := fun id hid => (h'.owners id hid).trans (h.owners id hid)
  products := fun id hid => (h'.products id hid).trans (h.products id hid)
  consumers := fun id hid name => (h'.consumers id hid name).trans (h.consumers id hid name)

theorem SameBut.mono {ids ids' : List Nat} {r r' : Registry} (h : SameBut ids r r')
    (sub : ∀ id ∈ ids, id ∈ ids') : SameBut ids' r r' where
  owners := fun id hid => h.owners id fun hi => hid (sub id hi)
  products := fun id hid => h.products id fun hi => hid (sub id hi)
  consumers := fun id hid => h.consumers id fun hi => hid (sub id hi)

/-! ## Dropping definitions -/

/-- What dropping definitions leaves, and which definitions it makes stale. -/
structure Dropped (ids : List Nat) (r r' : Registry) (stale stale' : List Nat) : Prop where
  same : SameBut ids r r'
  next : r'.next = r.next
  regular : r'.graph.Regular
  grown : ∀ id ∈ stale, id ∈ stale'
  reached : ∀ id ∈ ids, ∀ name, r.graph.products.get? id = some name →
    ∀ other ∈ r.graph.consumersOf name, other ∉ ids → other ∈ stale'

theorem unregister_same {r : Registry} (regular : r.graph.Regular) (stale : List Nat) (id : Nat) :
    SameBut [id] r (r.unregister stale id).1 where
  owners := fun k hk => by
    show (r.owners.erase id).get? k = _
    rw [Table.get?_erase, if_neg (by simpa using hk)]
  products := fun k hk => by
    show (r.graph.products.erase id).get? k = _
    rw [Table.get?_erase, if_neg (by simpa using hk)]
  consumers := fun k hk name => by
    show k ∈ (r.graph.remove id).consumersOf name ↔ _
    rw [Graph.mem_consumersOf_remove regular]
    exact and_iff_left (by simpa using hk)

theorem unregister_foldl_dropped (ids : List Nat) {r : Registry} {stale : List Nat}
    (regular : r.graph.Regular) (closed : r.graph.Closed stale) :
    Dropped ids r (ids.foldl (fun (r, stale) id => r.unregister stale id) (r, stale)).1 stale
      (ids.foldl (fun (r, stale) id => r.unregister stale id) (r, stale)).2 := by
  induction ids generalizing r stale with
  | nil =>
    exact ⟨⟨fun _ _ => rfl, fun _ _ => rfl, fun _ _ _ => Iff.rfl⟩, rfl, regular, fun _ h => h,
      fun _ h => nomatch h⟩
  | cons id rest ih =>
    have first := unregister_same regular stale id
    have closed' : (r.unregister stale id).1.graph.Closed (r.unregister stale id).2 :=
      (r.graph.invalidate_closed closed id).remove regular id
    have later := ih (r := (r.unregister stale id).1) (regular.remove id) closed'
    rw [List.foldl_cons]
    have here : ∀ k ∈ [id], k ∈ id :: rest := fun k hk => List.mem_cons.2 (.inl (by simpa using hk))
    refine ⟨(first.mono here).trans (later.same.mono fun k hk => List.mem_cons_of_mem id hk),
      later.next, later.regular, fun k hk => ?_, fun k hk name hname other ho hnew => ?_⟩
    · exact later.grown k (r.graph.mem_invalidate_of_mem hk)
    · rw [List.mem_cons, not_or] at hnew
      by_cases hid : k = id
      · subst hid
        have dependent : other ∈ r.graph.dependents k := Graph.mem_dependents.2 ⟨name, hname, ho⟩
        exact later.grown other (r.graph.invalidate_closed closed k k
          (r.graph.mem_invalidate_self k stale) other dependent)
      · have hk : k ∈ rest := (List.mem_cons.1 hk).resolve_left hid
        refine later.reached k hk name ?_ other ?_ hnew.2
        · rw [first.products k (by simpa using hid), hname]
        · exact (first.consumers other (by simpa using hnew.1) name).2 ho

theorem unregisterAll_dropped (ids : List Nat) {r : Registry} (regular : r.graph.Regular) :
    Dropped ids r (r.unregisterAll ids).1 [] (r.unregisterAll ids).2 :=
  unregister_foldl_dropped ids regular fun _ h => nomatch h

/-! ## Consuming -/

theorem mem_consumersOf_consumeAll {id other : Nat} {names : List Dependency}
    {g : Graph Nat Dependency} {name : Dependency} :
    other ∈ (consumeAll id names g).consumersOf name ↔
      other ∈ g.consumersOf name ∨ name ∈ names ∧ other = id := by
  unfold consumeAll
  induction names generalizing g with
  | nil => simp
  | cons n names ih =>
    rw [List.foldl_cons, ih, Graph.mem_consumersOf_consume, List.mem_cons, or_and_right, or_assoc]

theorem consumeAll_regular {g : Graph Nat Dependency} (regular : g.Regular) (id : Nat)
    (names : List Dependency) : (consumeAll id names g).Regular := by
  unfold consumeAll
  induction names generalizing g with
  | nil => exact regular
  | cons n names ih => exact ih (regular.consume id n)

theorem consumeAll_products (id : Nat) (names : List Dependency) (g : Graph Nat Dependency) :
    (consumeAll id names g).products = g.products := by
  unfold consumeAll
  induction names generalizing g with
  | nil => rfl
  | cons n names ih => exact ih _

/-! ## Adding definitions -/

/-- A definition of a document is registered under a number. -/
structure Enters (source : Nat) (r : Registry) (entry : Definition × Nat) : Prop where
  owner : r.owners.get? entry.2 = some source
  product : ∀ name, entry.1.product? = some name → r.graph.products.get? entry.2 = some name
  consumed : ∀ name ∈ entry.1.consumed, entry.2 ∈ r.graph.consumersOf name

theorem Enters.keep {source : Nat} {r r' : Registry} {entry : Definition × Nat} {ids : List Nat}
    (h : Enters source r entry) (same : SameBut ids r r') (other : entry.2 ∉ ids) :
    Enters source r' entry where
  owner := by rw [same.owners _ other, h.owner]
  product := fun name hn => by rw [same.products _ other, h.product name hn]
  consumed := fun name hn => (same.consumers _ other name).2 (h.consumed name hn)

/-- What adding definitions leaves, and which definitions it makes stale. -/
structure Added (source : Nat) (definitions : List Definition) (r r' : Registry)
    (stale stale' : List Nat) : Prop where
  same : SameBut (List.range' r.next definitions.length) r r'
  next : r'.next = r.next + definitions.length
  regular : r'.graph.Regular
  entered : ∀ entry ∈ definitions.zip (List.range' r.next definitions.length), Enters source r' entry
  grown : ∀ id ∈ stale, id ∈ stale'
  reached : ∀ d ∈ definitions, ∀ name, d.product? = some name →
    ∀ other ∈ r.graph.consumersOf name, other ∈ stale'

variable (source : Nat) (d : Definition) {r : Registry} (stale : List Nat)

/-- The graph in which a new definition is entered: its product is there already. -/
def produced (r : Registry) (d : Definition) : Graph Nat Dependency :=
  match d.product? with
  | none => r.graph
  | some name => r.graph.produce r.next name

theorem produced_consumersOf (name : Dependency) :
    (r.produced d).consumersOf name = r.graph.consumersOf name := by
  unfold produced
  cases d.product? <;> rfl

theorem produced_products (id : Nat) :
    (r.produced d).products.get? id =
      if id = r.next then d.product?.or (r.graph.products.get? id) else r.graph.products.get? id := by
  unfold produced
  cases d.product? with
  | none => simp
  | some name =>
    show (r.graph.products.insert r.next name).get? id = _
    rw [Table.get?_insert, Option.some_or]

theorem produced_regular (regular : r.graph.Regular) : (r.produced d).Regular := by
  unfold produced
  cases d.product? <;> exact regular

theorem mem_invalidate_foldl {g : Graph Nat Dependency} {keys stale : List Nat} {id : Nat} :
    id ∈ keys ∨ id ∈ stale → id ∈ keys.foldl (fun stale key => g.invalidate key stale) stale := by
  induction keys generalizing stale with
  | nil => exact fun h => h.resolve_left List.not_mem_nil
  | cons key keys ih =>
    rintro (h | h)
    · rcases List.mem_cons.1 h with rfl | h
      · exact ih (.inr (g.mem_invalidate_self id stale))
      · exact ih (.inl h)
    · exact ih (.inr (g.mem_invalidate_of_mem h))

theorem staleBy_grown {g : Graph Nat Dependency} {product : Option Dependency} {id : Nat}
    (h : id ∈ stale) : id ∈ staleBy g product stale := by
  unfold staleBy
  cases product with
  | none => exact h
  | some name => exact mem_invalidate_foldl (.inr h)

theorem register_same : SameBut [r.next] r (r.register source d stale).1 where
  owners := fun id hid => by
    show (r.owners.insert r.next source).get? id = _
    rw [Table.get?_insert, if_neg (by simpa using hid)]
  products := fun id hid => by
    show (consumeAll r.next d.consumed (r.produced d)).products.get? id = _
    rw [consumeAll_products, produced_products, if_neg (by simpa using hid)]
  consumers := fun id hid name => by
    show id ∈ (consumeAll r.next d.consumed (r.produced d)).consumersOf name ↔ _
    rw [mem_consumersOf_consumeAll, produced_consumersOf]
    exact or_iff_left fun h => hid (by simpa using h.2)

theorem register_enters : Enters source (r.register source d stale).1 (d, r.next) where
  owner := by
    show (r.owners.insert r.next source).get? r.next = _
    rw [Table.get?_insert, if_pos rfl]
  product := fun name hn => by
    show (consumeAll r.next d.consumed (r.produced d)).products.get? r.next = _
    rw [consumeAll_products, produced_products, if_pos rfl, hn, Option.some_or]
  consumed := fun name hn => by
    show r.next ∈ (consumeAll r.next d.consumed (r.produced d)).consumersOf name
    exact mem_consumersOf_consumeAll.2 (.inr ⟨hn, rfl⟩)

theorem consumersOf_register {name : Dependency} {id : Nat} (h : id ∈ r.graph.consumersOf name) :
    id ∈ (r.register source d stale).1.graph.consumersOf name := by
  show id ∈ (consumeAll r.next d.consumed (r.produced d)).consumersOf name
  rw [mem_consumersOf_consumeAll, produced_consumersOf]
  exact .inl h

theorem register_added (regular : r.graph.Regular) :
    Added source [d] r (r.register source d stale).1 stale (r.register source d stale).2 where
  same := register_same source d stale
  next := rfl
  regular := consumeAll_regular (produced_regular d regular) _ _
  entered := List.forall_mem_singleton.2 (register_enters source d stale)
  grown := fun _ hid => staleBy_grown stale hid
  reached := List.forall_mem_singleton.2 fun name hn other ho => by
    rw [← produced_consumersOf d] at ho
    show other ∈ staleBy (r.produced d) d.product? stale
    rw [hn]
    exact mem_invalidate_foldl (.inl ho)

variable {source d stale}

theorem Added.nil (regular : r.graph.Regular) : Added source [] r r stale stale where
  same := ⟨fun _ _ => rfl, fun _ _ => rfl, fun _ _ _ => Iff.rfl⟩
  next := rfl
  regular := regular
  entered := fun _ h => nomatch h
  grown := fun _ h => h
  reached := fun _ h => nomatch h

/-- Definitions are added behind one that keeps the consumers that there are. -/
theorem Added.cons {definitions : List Definition} {r' r'' : Registry} {stale' stale'' : List Nat}
    (first : Added source [d] r r' stale stale')
    (kept : ∀ name, ∀ id ∈ r.graph.consumersOf name, id ∈ r'.graph.consumersOf name)
    (later : Added source definitions r' r'' stale' stale'') :
    Added source (d :: definitions) r r'' stale stale'' := by
  have next : r'.next = r.next + 1 := first.next
  have range : List.range' r.next (d :: definitions).length =
      r.next :: List.range' r'.next definitions.length := by
    rw [next, List.length_cons, List.range'_succ]
  constructor
  case same =>
    rw [range]
    exact (first.same.mono fun _ hid => List.mem_singleton.1 hid ▸ List.mem_cons_self).trans
      (later.same.mono fun _ hid => List.mem_cons_of_mem _ hid)
  case next =>
    rw [later.next, next, List.length_cons]
    omega
  case regular => exact later.regular
  case entered =>
    rw [range, List.zip_cons_cons, List.forall_mem_cons]
    -- the numbers of the definitions behind are higher
    refine ⟨(List.forall_mem_singleton.1 first.entered).keep later.same fun h => ?_, later.entered⟩
    have := (List.mem_range'_1.1 h).1
    show False
    omega
  case grown => exact fun id hid => later.grown id (first.grown id hid)
  case reached =>
    rw [List.forall_mem_cons]
    refine ⟨fun name hn other ho => ?_, fun d' hd' name hn other ho => ?_⟩
    · exact later.grown other (List.forall_mem_singleton.1 first.reached name hn other ho)
    · exact later.reached d' hd' name hn other (kept name other ho)

theorem registerAll_added (source : Nat) (definitions : List Definition) {r : Registry}
    (stale : List Nat) (regular : r.graph.Regular) :
    Added source definitions r (r.registerAll source definitions stale).1 stale
      (r.registerAll source definitions stale).2 := by
  unfold registerAll
  induction definitions generalizing r stale with
  | nil => exact .nil regular
  | cons d rest ih =>
    have first := register_added source d stale regular
    exact first.cons (fun _ _ => consumersOf_register source d stale) (ih _ first.regular)

/-! ## Tracking types -/

theorem mem_consumersOf_trackTypes {id other : Nat} {types : List Text} {name : Dependency} :
    other ∈ (r.trackTypes id types).graph.consumersOf name ↔
      other ∈ r.graph.consumersOf name ∨ (∃ type ∈ types, .type type = name) ∧ other = id := by
  unfold trackTypes
  rw [mem_consumersOf_consumeAll, List.mem_map]

end Registry

end GraphQL
