import GraphQL.Database
import GraphQL.Proofs.Inference.Walk

/-! # Where resolutions come from

A construct is *within* some revisions if its own revision is one of them. What an index files comes
from its revisions, and what an inference resolves nodes to comes from those of its index and from
the revision that is resolved: `Database.build_within` puts both together. -/

namespace GraphQL

set_option autoImplicit false

variable {α δ : Type} {live : Nat → Prop}

/-! ## Tables and bindings -/

/-- All that is filed is within some revisions. -/
def Table.Within (live : Nat → Prop) (t : Table NodeId (Located α)) : Prop :=
  ∀ id a, t.get? id = some a → live a.revision

/-- All that is filed is within some revisions. -/
def MultiMap.Within {κ : Type} [DecidableEq κ] (live : Nat → Prop) (m : MultiMap κ (Located α)) :
    Prop := ∀ key, ∀ a ∈ m.get key, live a.revision

/-- All members are within some revisions. -/
def LayeredBindings.Within (live : Nat → Prop) (b : LayeredBindings (Located α)) : Prop :=
  ∀ type name, ∀ a ∈ b.membersByName type name, live a.revision

theorem Table.within_empty : ({} : Table NodeId (Located α)).Within live := by
  intro id a h
  rw [Table.get?_empty] at h
  cases h

theorem Table.Within.insert {t : Table NodeId (Located α)} (h : t.Within live) (id : NodeId)
    {a : Located α} (ha : live a.revision) : (t.insert id a).Within live := by
  intro key b hb
  rw [Table.get?_insert] at hb
  split at hb
  · exact Option.some.inj hb ▸ ha
  · exact h key b hb

namespace MultiMap

variable {κ : Type} [DecidableEq κ] {m : MultiMap κ (Located α)} {a : Located α}

theorem within_empty : ({} : MultiMap κ (Located α)).Within live := by
  intro key a ha
  rw [get_empty] at ha
  cases ha

theorem Within.insert (h : m.Within live) (key : κ) (ha : live a.revision) :
    (m.insert key a).Within live := by
  intro k b hb
  rw [get_insert] at hb
  split at hb
  · rcases List.mem_append.1 hb with hb | hb
    · exact h k b hb
    · exact List.mem_singleton.1 hb ▸ ha
  · exact h k b hb

theorem Within.insertNew [BEq (Located α)] (h : m.Within live) (key : κ) (ha : live a.revision) :
    (m.insertNew key a).Within live := by
  unfold MultiMap.insertNew
  split
  · exact h
  · exact h.insert key ha

theorem Within.first (h : m.Within live) {key : κ} (found : m.first? key = some a) :
    live a.revision := h key a (List.mem_of_head? found)

theorem Within.fileUnder {m : MultiMap Text (Located α)} (h : m.Within live) (name : Option Text)
    (ha : live a.revision) : (fileUnder name a m).Within live := by
  cases name with
  | none => exact h
  | some name => exact h.insert name ha

end MultiMap

namespace LayeredBindings

variable {b : LayeredBindings (Located α)}

theorem within_empty : ({} : LayeredBindings (Located α)).Within live := by
  intro type name a ha
  cases ha

theorem mem_membersByName_insert {layer : Layer} {t n type name : Text} {member a : Located α}
    (h : a ∈ (b.insert layer t n member).membersByName type name) :
    a ∈ b.membersByName type name ∨ a = member := by
  have entry {b : Bindings (Located α)}
      (h : a ∈ (b.insert t n member).membersByName type name) :
      a ∈ b.membersByName type name ∨ a = member := by
    rw [Bindings.membersByName_insert] at h
    split at h
    · exact (List.mem_append.1 h).imp_right List.mem_singleton.1
    · exact .inl h
  cases layer with
  | definition =>
    rcases List.mem_append.1 h with h | h
    · exact (entry h).imp_left (List.mem_append_left _)
    · exact .inl (List.mem_append_right _ h)
  | extension =>
    rcases List.mem_append.1 h with h | h
    · exact .inl (List.mem_append_left _ h)
    · exact (entry h).imp_left (List.mem_append_right _)

theorem Within.bindMembers (h : b.Within live) (layer : Layer) {revision : Nat}
    (own : live revision) (type : Text) (name : α → Text) (members : List α) :
    (bindMembers layer revision type name members b).Within live := by
  unfold GraphQL.bindMembers
  induction members generalizing b with
  | nil => exact h
  | cons member members ih =>
    refine ih fun t n a ha => ?_
    rcases mem_membersByName_insert ha with ha | rfl
    · exact h t n a ha
    · exact own

theorem Within.first (h : b.Within live) {type name : Text} {a : Located α}
    (found : (b.membersByName type name).head? = some a) : live a.revision :=
  h type name a (List.mem_of_head? found)

end LayeredBindings

/-! ## Indexes -/

namespace Index

/-- What nodes are looked up in is within some revisions. -/
structure Within (live : Nat → Prop) (index : Index) : Prop where
  directives : index.directives.Within live
  fragments : index.fragments.Within live
  fields : index.fields.Within live
  inputFields : index.inputFields.Within live

variable {index : Index} {revision : Nat}

theorem within_empty : ({} : Index).Within live :=
  ⟨MultiMap.within_empty, MultiMap.within_empty, LayeredBindings.within_empty,
    LayeredBindings.within_empty⟩

theorem Within.addMembers (h : index.Within live) (layer : Layer) (own : live revision)
    (name : Option Text) (body : TypeBody δ) :
    (index.addMembers layer revision name body).Within live := by
  cases name with
  | none => exact h
  | some type =>
    cases body with
    | object body => exact { h with fields := h.fields.bindMembers layer own type _ _ }
    | interface body => exact { h with fields := h.fields.bindMembers layer own type _ _ }
    | input directives fields =>
      exact { h with inputFields := h.inputFields.bindMembers layer own type _ _ }
    | _ => exact { h with }

theorem Within.add (h : index.Within live) (own : live revision) (d : Definition) :
    (index.add revision d).Within live := by
  cases d with
  | operation d =>
    unfold Index.add
    dsimp only
    split <;> exact { h with }
  | fragment d => exact { h with fragments := h.fragments.fileUnder _ own }
  | directive d => exact { h with directives := h.directives.fileUnder _ own }
  | type d =>
    refine Within.addMembers ?_ .definition own _ d.body
    exact { h with }
  | typeExtension d =>
    refine Within.addMembers ?_ .extension own _ d.body
    exact { h with }
  | _ => exact { h with }

theorem Within.addRevision (h : index.Within live) {revision : Revision} (own : live revision.id) :
    (index.addRevision revision).Within live := by
  unfold Index.addRevision
  induction revision.tree.definitions generalizing index with
  | nil => exact h
  | cons d definitions ih => exact ih (h.add own d)

/-- What an index files comes from its revisions. -/
theorem build_within {revisions : List Revision} (own : ∀ r ∈ revisions, live r.id) :
    (Index.build revisions).Within live := by
  suffices h : ∀ index : Index, index.Within live → (revisions.foldl addRevision index).Within live
    from h {} within_empty
  induction revisions with
  | nil => exact fun _ h => h
  | cons r revisions ih =>
    rw [List.forall_mem_cons] at own
    exact fun index h => ih own.2 _ (h.addRevision own.1)

end Index

/-! ## Inferences -/

/-- All that nodes are resolved to is within some revisions. -/
structure Inference.Within (live : Nat → Prop) (i : Inference) : Prop where
  fields : i.fields.Within live
  argumentLists : i.argumentLists.Within live
  arguments : i.arguments.Within live
  valueTypes : i.valueTypes.Within live
  valueDefaults : i.valueDefaults.Within live
  directives : i.directives.Within live
  fragments : i.fragments.Within live
  spreads : i.spreads.Within live

/-- What is expected is within some revisions. -/
structure ExpectedValue.Within (live : Nat → Prop) (e : ExpectedValue) : Prop where
  type : live e.type.revision
  default : ∀ d ∈ e.default, live d.revision

namespace Resolver

/-- All that is resolved, and all that stands around the current node, is within some revisions. -/
structure Within (live : Nat → Prop) (r : Resolver) : Prop where
  inference : r.inference.Within live
  expectations : ∀ e, some e ∈ r.expectations → e.Within live
  argumentScopes : ∀ a, some a ∈ r.argumentScopes → live a.revision

variable {r : Resolver} {index : Index} {revision : Nat}

theorem within_empty : ({} : Resolver).Within live where
  inference := ⟨Table.within_empty, Table.within_empty, Table.within_empty, Table.within_empty,
    Table.within_empty, Table.within_empty, Table.within_empty, MultiMap.within_empty⟩
  expectations := fun _ h => nomatch h
  argumentScopes := fun _ h => nomatch h

theorem Within.record (h : r.Within live) {change : Inference → Inference}
    (kept : (change r.inference).Within live) : (r.record change).Within live :=
  { h with inference := kept }

theorem Within.reference (h : r.Within live) (type : Text) : (r.reference type).Within live := by
  have hi := h.inference
  unfold Resolver.reference
  cases r.definition with
  | none => exact h
  | some id => exact h.record { hi with }

theorem Within.enterScope (h : r.Within live) (type : Option Text) (set : Option NodeId) :
    (r.enterScope type set).Within live := by
  unfold Resolver.enterScope
  cases type with
  | none => exact { h with }
  | some name =>
    have pushed : ({ r with scopes := some name :: r.scopes } : Resolver).Within live := { h with }
    have referenced := pushed.reference name
    cases set with
    | none => exact referenced
    | some set => exact referenced.record { referenced.inference with }

theorem Within.recordArguments (h : r.Within live) (given : Option Arguments)
    {taken : Option (Located (Delimited InputValueDefinition))}
    (known : ∀ t ∈ taken, live t.revision) : (r.recordArguments revision given taken).Within live := by
  have hi := h.inference
  unfold Resolver.recordArguments
  cases given with
  | none => exact h
  | some given =>
    cases taken with
    | none => exact h
    | some taken =>
      exact h.record { hi with argumentLists := hi.argumentLists.insert _ (known taken rfl) }

theorem takenBy_within {revision : Nat} (known : live revision)
    (arguments : Option (Delimited InputValueDefinition)) :
    ∀ t ∈ takenBy revision arguments, live t.revision := by
  intro t ht
  obtain ⟨a, -, rfl⟩ := Option.map_eq_some_iff.1 ht
  exact known

theorem Within.expect (h : r.Within live) {expected : Option ExpectedValue}
    (known : ∀ e ∈ expected, e.Within live) : (r.expect expected).Within live :=
  { h with
    expectations := fun e he => (List.mem_cons.1 he).elim (fun same => known e same.symm)
      (h.expectations e) }

theorem expectedBy_within {d : Located InputValueDefinition} (known : live d.revision) :
    ∀ e ∈ expectedBy d, e.Within live := by
  intro e he
  obtain ⟨type, -, rfl⟩ := Option.map_eq_some_iff.1 he
  refine ⟨known, fun default hd => ?_⟩
  obtain ⟨slot, -, hd⟩ := Option.bind_eq_some_iff.1 hd
  obtain ⟨value, -, rfl⟩ := Option.map_eq_some_iff.1 hd
  exact known

theorem expectedOf_within (own : live revision) (type : Required TypeRef) :
    ∀ e ∈ expectedOf revision type, e.Within live := by
  intro e he
  obtain ⟨t, -, rfl⟩ := Option.map_eq_some_iff.1 he
  exact ⟨own, fun _ hd => nomatch hd⟩

theorem Within.meetValue (h : r.Within live) (value : NodeId) : (r.meetValue value).Within live := by
  have hi := h.inference
  unfold Resolver.meetValue
  split
  · exact h
  · next expected found =>
    have known := h.expectations expected (mem_of_innermost found)
    refine h.record { hi with valueTypes := hi.valueTypes.insert value known.type
                              valueDefaults := ?_ }
    cases hd : expected.default with
    | none => exact hi.valueDefaults
    | some default => exact hi.valueDefaults.insert value (known.default default hd)

theorem Within.enterField (h : r.Within live) (files : index.Within live)
    (f : Field SelectionSet) : (r.enterField index revision f).Within live := by
  unfold Resolver.enterField
  dsimp only
  split
  · exact { h with }
  · next d found =>
    have hi := h.inference
    obtain ⟨type, -, found⟩ := Option.bind_eq_some_iff.1 found
    obtain ⟨name, -, found⟩ := Option.bind_eq_some_iff.1 found
    have known : live d.revision := files.fields.first found
    refine Within.enterScope (Within.recordArguments ?_ _ (takenBy_within known _)) _ _
    exact h.record { hi with fields := hi.fields.insert _ known }

theorem Within.enterDirective (h : r.Within live) (files : index.Within live) (d : Directive) :
    (r.enterDirective index revision d).Within live := by
  unfold Resolver.enterDirective
  split
  · exact h
  · next found lookup =>
    have hi := h.inference
    obtain ⟨name, -, lookup⟩ := Option.bind_eq_some_iff.1 lookup
    have known : live found.revision := files.directives.first lookup
    refine Within.recordArguments ?_ _ (takenBy_within known _)
    exact h.record { hi with directives := hi.directives.insert _ known }

theorem Within.enterSpread (h : r.Within live) (files : index.Within live) (own : live revision)
    (s : FragmentSpread) : (r.enterSpread index revision s).Within live := by
  unfold Resolver.enterSpread
  split
  · exact h
  · next found lookup =>
    have hi := h.inference
    have known : live found.revision := files.fragments.first lookup
    exact h.record { hi with fragments := hi.fragments.insert _ known
                             spreads := hi.spreads.insertNew _ own }

theorem Within.enterArgument (h : r.Within live) (a : Argument) :
    (r.enterArgument revision a).Within live := by
  unfold Resolver.enterArgument
  dsimp only
  split
  · exact h.expect fun _ he => nomatch he
  · next d found =>
    have hi := h.inference
    obtain ⟨taken, top, found⟩ := Option.bind_eq_some_iff.1 found
    obtain ⟨item, -, rfl⟩ := Option.map_eq_some_iff.1 found
    have known : live taken.revision := h.argumentScopes taken (mem_of_innermost top)
    refine Within.expect ?_ (expectedBy_within known)
    exact h.record { hi with arguments := hi.arguments.insert _ known }

theorem Within.enterObject (h : r.Within live) : r.enterObject.Within live := by
  unfold Resolver.enterObject
  dsimp only
  split
  · exact { h with }
  · exact { h.reference _ with }

theorem Within.enterObjectField (h : r.Within live) (files : index.Within live) (name : Token) :
    (r.enterObjectField index name).Within live := by
  refine h.expect fun e he => ?_
  obtain ⟨type, -, he⟩ := Option.bind_eq_some_iff.1 he
  obtain ⟨d, found, he⟩ := Option.bind_eq_some_iff.1 he
  exact expectedBy_within (files.inputFields.first found) e he

theorem Within.enterList (h : r.Within live) :
    (r.expect ((innermost? r.expectations).bind ExpectedValue.item?)).Within live := by
  refine h.expect fun e he => ?_
  obtain ⟨expected, top, he⟩ := Option.bind_eq_some_iff.1 he
  obtain ⟨item, -, rfl⟩ := Option.map_eq_some_iff.1 he
  exact ⟨(h.expectations expected (mem_of_innermost top)).type, fun _ hd => nomatch hd⟩

theorem Within.enter (h : r.Within live) (files : index.Within live) (own : live revision)
    (n : Node) : (r.enter index revision n).Within live := by
  cases n with
  | operation d => exact h.enterScope _ _
  | fragment d => exact h.enterScope _ _
  | inline f => exact h.enterScope _ _
  | field f => exact h.enterField files f
  | directive d => exact h.enterDirective files d
  | spread s => exact h.enterSpread files own s
  | arguments a =>
    refine { h with argumentScopes := fun scope hs => ?_ }
    rcases List.mem_cons.1 hs with hs | hs
    · exact h.inference.argumentLists _ scope hs.symm
    · exact h.argumentScopes scope hs
  | argument a => exact h.enterArgument a
  | value v =>
    cases v with
    | list items => exact h.enterList
    | object fields => exact h.enterObject
    | _ => exact h
  | objectField f =>
    cases f with
    | mk name colon value => exact h.enterObjectField files name
  | variableDefinition d => exact h.expect (expectedOf_within own d.type)
  | inputValueDefinition d => exact h.expect (expectedOf_within own d.type)
  | _ => exact h

theorem Within.leaveExpectation (h : r.Within live) : r.leaveExpectation.Within live :=
  { h with expectations := fun e he => h.expectations e (List.mem_of_mem_drop he) }

theorem Within.leave (h : r.Within live) (n : Node) : (r.leave n).Within live := by
  cases n with
  | operation d => exact { h with }
  | fragment d => exact { h with }
  | inline f => exact { h with }
  | field f => exact { h with }
  | arguments a =>
    exact { h with argumentScopes := fun a ha => h.argumentScopes a (List.mem_of_mem_drop ha) }
  | argument a => exact h.leaveExpectation
  | value v =>
    cases v with
    | list items => exact h.leaveExpectation
    | object fields => exact { h with }
    | _ => exact h
  | objectField f => exact h.leaveExpectation
  | variableDefinition d => exact h.leaveExpectation
  | inputValueDefinition d => exact h.leaveExpectation
  | _ => exact h

theorem Within.step (h : r.Within live) (files : index.Within live) (own : live revision)
    (e : Event) : (r.step index revision e).Within live := by
  cases e with
  | announce role n =>
    cases role with
    | definition => exact { h with }
    | value => exact h.meetValue _
    | _ => exact h
  | enter n => exact h.enter files own n
  | leave n => exact h.leave n
  | _ => exact h

theorem Within.foldl (h : r.Within live) (files : index.Within live) (own : live revision)
    (events : List Event) : (events.foldl (Resolver.step index revision) r).Within live := by
  induction events generalizing r with
  | nil => exact h
  | cons e events ih => exact ih (h.step files own e)

end Resolver

/-- A revision is resolved to what its index files and what it holds itself. -/
theorem infer_within {index : Index} (files : index.Within live) {revision : Revision}
    (own : live revision.id) : (infer index revision).Within live :=
  (Resolver.within_empty.foldl files own _).inference

/-! ## Databases -/

namespace Database

/-- All inferences are within some revisions. -/
def Within (live : Nat → Prop) (database : Database) : Prop :=
  ∀ entry ∈ database.inferences, entry.2.Within live

theorem Within.lookup {database : Database} (h : database.Within live)
    {table : Inference → Table NodeId (Located α)}
    (within : ∀ i : Inference, i.Within live → (table i).Within live) {id : NodeId} {a : Located α}
    (found : database.lookup? table id = some a) : live a.revision := by
  obtain ⟨entry, he, found⟩ := List.exists_of_findSome?_eq_some found
  exact within entry.2 (h entry he) id a found

theorem mem_distinctRevisions {revisions : List Revision} {r : Revision}
    (h : r ∈ distinctRevisions revisions) : r ∈ revisions := by
  induction revisions with
  | nil => exact h
  | cons first rest ih =>
    rcases List.mem_cons.1 h with rfl | h
    · exact List.mem_cons_self
    · exact List.mem_cons_of_mem _ (ih (List.mem_filter.1 h).1)

/-- A database that is made without reuse resolves nodes within its own revisions. -/
theorem build_within {revisions : List Revision} (own : ∀ r ∈ revisions, live r.id) :
    (Database.build revisions {}).Within live := by
  intro entry he
  obtain ⟨r, hr, rfl⟩ := List.mem_map.1 he
  exact infer_within (Index.build_within own) (own r (mem_distinctRevisions hr))

end Database

end GraphQL
