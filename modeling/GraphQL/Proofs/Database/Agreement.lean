import Mathlib.Data.List.Nodup
import GraphQL.Database
import GraphQL.Proofs.Inference.Agreement

/-! # Databases that agree

`Database.AgreeOff` says of two databases what `Inference.AgreeOff` says of two inferences. Databases
of the same revisions agree where their inferences do, `Database.agreeOff_of_inferences`. -/

namespace GraphQL

set_option autoImplicit false

variable {α : Type} {off off' : List NodeId}

/-! ## More that is off -/

theorem Table.AgreeOff.mono {t u : Table NodeId α} (h : t.AgreeOff off u) (sub : off ⊆ off') :
    t.AgreeOff off' u := fun id hid => h id fun hm => hid (sub hm)

theorem spreadsOff_spreadsOff (sub : off ⊆ off') (spreads : List (Located FragmentSpread)) :
    spreadsOff off' (spreadsOff off spreads) = spreadsOff off' spreads := by
  unfold spreadsOff
  rw [List.filter_filter]
  refine List.filter_congr fun s _ => ?_
  by_cases h : s.id ∈ off
  · simp [h, sub h]
  · simp [h]

theorem MultiMap.AgreeOff.mono {m n : MultiMap NodeId (Located FragmentSpread)}
    (h : m.AgreeOff off n) (sub : off ⊆ off') : m.AgreeOff off' n := by
  intro fragment
  rw [← spreadsOff_spreadsOff sub, h fragment, spreadsOff_spreadsOff sub]

theorem Inference.AgreeOff.mono {off off' : Off} {a b : Inference} (h : a.AgreeOff off b)
    (names : off.names ⊆ off'.names) (given : off.given ⊆ off'.given) : a.AgreeOff off' b where
  fields := h.fields
  selections := h.selections
  argumentLists := h.argumentLists.mono given
  arguments := h.arguments.mono given
  valueTypes := h.valueTypes.mono given
  valueDefaults := h.valueDefaults.mono given
  directives := h.directives.mono names
  fragments := h.fragments.mono names
  spreads := h.spreads.mono names

/-! ## Databases -/

namespace Database

/-- Both give the same for all nodes that are not off, and fields and selection sets anyway. -/
structure AgreeOff (off : Off) (a b : Database) : Prop where
  fields : ∀ id, a.field? id = b.field? id
  selections : ∀ id, a.selection? id = b.selection? id
  argumentLists : ∀ id, id ∉ off.given → a.argumentList? id = b.argumentList? id
  arguments : ∀ id, id ∉ off.given → a.argument? id = b.argument? id
  valueTypes : ∀ id, id ∉ off.given → a.valueType? id = b.valueType? id
  valueDefaults : ∀ id, id ∉ off.given → a.valueDefault? id = b.valueDefault? id
  directives : ∀ id, id ∉ off.names → a.directive? id = b.directive? id
  fragments : ∀ id, id ∉ off.names → a.fragment? id = b.fragment? id
  spreads : ∀ id, spreadsOff off.names (a.spreads id) = spreadsOff off.names (b.spreads id)

variable {a b : Database} {off : Off} {items : List Revision} {f g : Revision → Inference}

theorem lookup_eq (ha : a.inferences = items.map fun r => (r.id, f r))
    (table : Inference → Table NodeId α) (id : NodeId) :
    a.lookup? table id = items.findSome? fun r => (table (f r)).get? id := by
  unfold lookup?
  rw [ha, List.findSome?_map]
  rfl

/-- A node is resolved by the inference of its own revision, if others know nothing of it. -/
theorem lookup_own (ha : a.inferences = items.map fun r => (r.id, f r))
    (ids : (items.map Revision.id).Nodup) (table : Inference → Table NodeId α) {id : NodeId}
    (others : ∀ r ∈ items, id.revision ≠ r.id → (table (f r)).get? id = none)
    {r : Revision} (hr : r ∈ items) (own : id.revision = r.id) :
    a.lookup? table id = (table (f r)).get? id := by
  rw [lookup_eq ha]
  refine findSome_eq hr rfl fun r' hr' => ?_
  by_cases same : id.revision = r'.id
  · rw [List.inj_on_of_nodup_map ids hr' hr (same.symm.trans own)]
    exact .inr rfl
  · exact .inl (others r' hr' same)

theorem lookup_congr (ha : a.inferences = items.map fun r => (r.id, f r))
    (hb : b.inferences = items.map fun r => (r.id, g r)) (table : Inference → Table NodeId α)
    {id : NodeId} (same : ∀ r ∈ items, (table (f r)).get? id = (table (g r)).get? id) :
    a.lookup? table id = b.lookup? table id := by
  rw [lookup_eq ha, lookup_eq hb]
  clear ha hb
  induction items with
  | nil => rfl
  | cons r items ih =>
    rw [List.forall_mem_cons] at same
    rw [List.findSome?_cons, List.findSome?_cons, ih same.2, same.1]

theorem spreads_congr (ha : a.inferences = items.map fun r => (r.id, f r))
    (hb : b.inferences = items.map fun r => (r.id, g r)) {names : List NodeId}
    (same : ∀ r ∈ items, (f r).spreads.AgreeOff names (g r).spreads) (fragment : NodeId) :
    spreadsOff names (a.spreads fragment) = spreadsOff names (b.spreads fragment) := by
  unfold spreads spreadsOff
  rw [ha, hb, List.filter_flatMap, List.filter_flatMap, List.flatMap_map, List.flatMap_map]
  exact List.flatMap_congr fun r hr => same r hr fragment

/-- Databases of the same revisions agree where their inferences do. -/
theorem agreeOff_of_inferences (ha : a.inferences = items.map fun r => (r.id, f r))
    (hb : b.inferences = items.map fun r => (r.id, g r))
    (same : ∀ r ∈ items, (f r).AgreeOff off (g r)) : a.AgreeOff off b where
  fields := fun id => lookup_congr ha hb _ fun r hr => (same r hr).fields id List.not_mem_nil
  selections := fun id => lookup_congr ha hb _ fun r hr => (same r hr).selections id List.not_mem_nil
  argumentLists := fun id hid => lookup_congr ha hb _ fun r hr => (same r hr).argumentLists id hid
  arguments := fun id hid => lookup_congr ha hb _ fun r hr => (same r hr).arguments id hid
  valueTypes := fun id hid => lookup_congr ha hb _ fun r hr => (same r hr).valueTypes id hid
  valueDefaults := fun id hid => lookup_congr ha hb _ fun r hr => (same r hr).valueDefaults id hid
  directives := fun id hid => lookup_congr ha hb _ fun r hr => (same r hr).directives id hid
  fragments := fun id hid => lookup_congr ha hb _ fun r hr => (same r hr).fragments id hid
  spreads := fun id => spreads_congr ha hb (fun r hr => (same r hr).spreads) id

end Database

end GraphQL
