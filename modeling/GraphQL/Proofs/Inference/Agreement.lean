import GraphQL.Proofs.Database.Index
import GraphQL.Proofs.Document.SelfReference
import GraphQL.Proofs.Inference.Walk

/-! # Inferences that agree

Two inferences of one revision by different indexes may differ at some nodes. `Inference.AgreeOff`
says that they resolve all other nodes alike, and fields and selection sets in any case.

* `Resolver.Alike` holds of two walks that are at the same node and agree so far,
* `Resolver.Alike.enter`: entering a node keeps it, if the indexes agree on what the node is looked
  up by. -/

namespace GraphQL

set_option autoImplicit false

variable {α : Type}

/-! ## Tables -/

/-- Both hold the same under every identity that is not off. -/
def Table.AgreeOff (off : List NodeId) (t u : Table NodeId α) : Prop :=
  ∀ id, id ∉ off → t.get? id = u.get? id

namespace Table

variable {off : List NodeId} {t u v : Table NodeId α}

theorem AgreeOff.refl (t : Table NodeId α) : AgreeOff off t t := fun _ _ => rfl

theorem AgreeOff.symm (h : AgreeOff off t u) : AgreeOff off u t := fun id hid => (h id hid).symm

theorem AgreeOff.trans (h : AgreeOff off t u) (h' : AgreeOff off u v) : AgreeOff off t v :=
  fun id hid => (h id hid).trans (h' id hid)

theorem AgreeOff.insert (h : AgreeOff off t u) (key : NodeId) (value : α) :
    AgreeOff off (t.insert key value) (u.insert key value) := by
  intro id hid
  rw [get?_insert, get?_insert, h id hid]

theorem insert_agreeOff {key : NodeId} (hk : key ∈ off) (value : α) (t : Table NodeId α) :
    AgreeOff off t (t.insert key value) := by
  intro id hid
  rw [get?_insert, if_neg]
  rintro rfl
  exact hid hk

end Table

/-! ## Spreads -/

/-- The spreads that are not off. -/
def spreadsOff (off : List NodeId) (spreads : List (Located FragmentSpread)) :
    List (Located FragmentSpread) :=
  spreads.filter fun s => decide (s.id ∉ off)

/-- Both hold the same spreads of every fragment, but for those that are off. -/
def MultiMap.AgreeOff (off : List NodeId) (m n : MultiMap NodeId (Located FragmentSpread)) : Prop :=
  ∀ fragment, spreadsOff off (m.get fragment) = spreadsOff off (n.get fragment)

namespace MultiMap

variable {off : List NodeId} {m n : MultiMap NodeId (Located FragmentSpread)}

theorem contains_spreadsOff {s : Located FragmentSpread} (hs : s.id ∉ off)
    (spreads : List (Located FragmentSpread)) :
    (spreadsOff off spreads).contains s = spreads.contains s := by
  induction spreads with
  | nil => rfl
  | cons t spreads ih =>
    by_cases ht : t.id ∉ off
    · rw [spreadsOff, List.filter_cons_of_pos (by simpa using ht), List.contains_cons,
        List.contains_cons, ← ih, spreadsOff]
    · rw [spreadsOff, List.filter_cons_of_neg (by simpa using ht), List.contains_cons, ← ih]
      have other : s.id ≠ t.id := fun e => ht (e ▸ hs)
      have : (s == t) = false := by
        show (s.id == t.id) = false
        exact beq_eq_false_iff_ne.2 other
      rw [this, Bool.false_or, spreadsOff]

/-- A spread that is off leaves no trace, and whether another one is new is told without those that
are off. -/
theorem spreadsOff_insertNew (m : MultiMap NodeId (Located FragmentSpread)) (fragment : NodeId)
    (s : Located FragmentSpread) (id : NodeId) :
    spreadsOff off ((m.insertNew fragment s).get id) =
      if id = fragment ∧ s.id ∉ off ∧ (spreadsOff off (m.get fragment)).contains s = false then
        spreadsOff off (m.get id) ++ [s]
      else spreadsOff off (m.get id) := by
  rw [get_insertNew]
  by_cases hs : s.id ∈ off
  · have new : ¬(id = fragment ∧ s.id ∉ off ∧
        (spreadsOff off (m.get fragment)).contains s = false) := fun h => h.2.1 hs
    rw [if_neg new]
    split
    · rw [spreadsOff, List.filter_append, List.filter_cons_of_neg (by simpa using hs),
        List.filter_nil, List.append_nil, spreadsOff]
    · rfl
  · rw [contains_spreadsOff hs]
    by_cases hn : id = fragment ∧ (m.get fragment).contains s = false
    · rw [if_pos hn, if_pos ⟨hn.1, hs, hn.2⟩, spreadsOff, List.filter_append,
        List.filter_cons_of_pos (by simpa using hs), List.filter_nil, spreadsOff]
    · rw [if_neg hn, if_neg fun h => hn ⟨h.1, h.2.2⟩]

theorem AgreeOff.insertNew (h : AgreeOff off m n) (fragment : NodeId) (s : Located FragmentSpread) :
    AgreeOff off (m.insertNew fragment s) (n.insertNew fragment s) := by
  intro id
  rw [spreadsOff_insertNew, spreadsOff_insertNew, h id, h fragment]

theorem insertNew_agreeOff {s : Located FragmentSpread} (hs : s.id ∈ off) (fragment : NodeId)
    (m : MultiMap NodeId (Located FragmentSpread)) : AgreeOff off m (m.insertNew fragment s) := by
  intro id
  rw [spreadsOff_insertNew, if_neg fun h => h.2.1 hs]

end MultiMap

/-! ## Inferences -/

/-- Where two inferences may differ: at nodes that are looked up by a name, and at what is given to
a directive. -/
structure Off where
  names : List NodeId
  given : List NodeId

variable {off : Off}

namespace Inference

/-- Both resolve all nodes alike that are not off, and fields and selection sets anyway. -/
structure AgreeOff (off : Off) (a b : Inference) : Prop where
  fields : a.fields.AgreeOff [] b.fields
  selections : a.selections.AgreeOff [] b.selections
  argumentLists : a.argumentLists.AgreeOff off.given b.argumentLists
  arguments : a.arguments.AgreeOff off.given b.arguments
  valueTypes : a.valueTypes.AgreeOff off.given b.valueTypes
  valueDefaults : a.valueDefaults.AgreeOff off.given b.valueDefaults
  directives : a.directives.AgreeOff off.names b.directives
  fragments : a.fragments.AgreeOff off.names b.fragments
  spreads : a.spreads.AgreeOff off.names b.spreads

variable {a b c : Inference}

theorem AgreeOff.refl (off : Off) (a : Inference) : AgreeOff off a a :=
  ⟨.refl _, .refl _, .refl _, .refl _, .refl _, .refl _, .refl _, .refl _, fun _ => rfl⟩

theorem AgreeOff.symm (h : AgreeOff off a b) : AgreeOff off b a :=
  ⟨h.fields.symm, h.selections.symm, h.argumentLists.symm, h.arguments.symm, h.valueTypes.symm,
    h.valueDefaults.symm, h.directives.symm, h.fragments.symm, fun id => (h.spreads id).symm⟩

theorem AgreeOff.trans (h : AgreeOff off a b) (h' : AgreeOff off b c) : AgreeOff off a c :=
  ⟨h.fields.trans h'.fields, h.selections.trans h'.selections,
    h.argumentLists.trans h'.argumentLists, h.arguments.trans h'.arguments,
    h.valueTypes.trans h'.valueTypes, h.valueDefaults.trans h'.valueDefaults,
    h.directives.trans h'.directives, h.fragments.trans h'.fragments,
    fun id => (h.spreads id).trans (h'.spreads id)⟩

end Inference

/-! ## Walks side by side -/

namespace Resolver

/-- Two walks are at the same node and agree off some nodes. Whatever types the stacks name, the
indexes agree on. -/
structure Alike (i j : Index) (off : Off) (r s : Resolver) : Prop where
  surroundings : r.surroundings = s.surroundings
  definition : r.definition = s.definition
  inference : r.inference.AgreeOff off s.inference
  scopes : ∀ type, some type ∈ r.scopes → i.AgreeOn (.type type) j
  inputObjects : ∀ type, some type ∈ r.inputObjects → i.AgreeOn (.type type) j

variable {i j : Index} {revision : Nat} {r s : Resolver}

theorem Alike.record (h : Alike i j off r s) {change change' : Inference → Inference}
    (agree : (change r.inference).AgreeOff off (change' s.inference)) :
    Alike i j off (r.record change) (s.record change') :=
  ⟨h.surroundings, h.definition, agree, h.scopes, h.inputObjects⟩

theorem Alike.reference (h : Alike i j off r s) (type : Text) :
    Alike i j off (r.reference type) (s.reference type) := by
  have hi := h.inference
  unfold Resolver.reference
  rw [← h.definition]
  cases r.definition with
  | none => exact h
  | some id => exact h.record ⟨hi.1, hi.2, hi.3, hi.4, hi.5, hi.6, hi.7, hi.8, hi.9⟩

theorem Alike.scopes_eq (h : Alike i j off r s) : r.scopes = s.scopes :=
  congrArg Surroundings.scopes h.surroundings

theorem Alike.expectations_eq (h : Alike i j off r s) : r.expectations = s.expectations :=
  congrArg Surroundings.expectations h.surroundings

theorem Alike.argumentScopes_eq (h : Alike i j off r s) : r.argumentScopes = s.argumentScopes :=
  congrArg Surroundings.argumentScopes h.surroundings

theorem Alike.inputObjects_eq (h : Alike i j off r s) : r.inputObjects = s.inputObjects :=
  congrArg Surroundings.inputObjects h.surroundings

theorem Alike.pushScope (h : Alike i j off r s) {type : Option Text}
    (known : ∀ name, type = some name → i.AgreeOn (.type name) j) :
    Alike i j off { r with scopes := type :: r.scopes } { s with scopes := type :: s.scopes } where
  surroundings := congrArg (Surroundings.pushScope type) h.surroundings
  definition := h.definition
  inference := h.inference
  scopes := fun name hn => (List.mem_cons.1 hn).elim (fun e => known name e.symm) (h.scopes name)
  inputObjects := h.inputObjects

theorem Alike.pushInputObject (h : Alike i j off r s) {type : Option Text}
    (known : ∀ name, type = some name → i.AgreeOn (.type name) j) :
    Alike i j off { r with inputObjects := type :: r.inputObjects }
      { s with inputObjects := type :: s.inputObjects } where
  surroundings := by
    have e := h.surroundings
    show ({ r.surroundings with inputObjects := type :: r.surroundings.inputObjects } :
      Surroundings) = { s.surroundings with inputObjects := type :: s.surroundings.inputObjects }
    rw [e]
  definition := h.definition
  inference := h.inference
  scopes := h.scopes
  inputObjects := fun name hn =>
    (List.mem_cons.1 hn).elim (fun e => known name e.symm) (h.inputObjects name)

theorem Alike.expect (h : Alike i j off r s) (expected : Option ExpectedValue) :
    Alike i j off (r.expect expected) (s.expect expected) :=
  ⟨congrArg (Surroundings.pushExpectation expected) h.surroundings, h.definition, h.inference,
    h.scopes, h.inputObjects⟩

theorem Alike.enterScope (h : Alike i j off r s) {type : Option Text}
    (known : ∀ name, type = some name → i.AgreeOn (.type name) j) (set : Option NodeId) :
    Alike i j off (r.enterScope type set) (s.enterScope type set) := by
  have pushed := h.pushScope known
  unfold Resolver.enterScope
  cases type with
  | none => exact pushed
  | some name =>
    have referenced := pushed.reference name
    have hi := referenced.inference
    cases set with
    | none => exact referenced
    | some set =>
      exact referenced.record
        { hi with selections := hi.selections.insert set name }

theorem Alike.recordArguments (h : Alike i j off r s) (given : Option Arguments)
    (taken : Option (Located (Delimited InputValueDefinition))) :
    Alike i j off (r.recordArguments revision given taken)
      (s.recordArguments revision given taken) := by
  have hi := h.inference
  unfold Resolver.recordArguments
  cases given with
  | none => exact h
  | some given =>
    cases taken with
    | none => exact h
    | some taken =>
      exact h.record { hi with argumentLists := hi.argumentLists.insert _ taken }

theorem Alike.meetValue (h : Alike i j off r s) (value : NodeId) :
    Alike i j off (r.meetValue value) (s.meetValue value) := by
  have hi := h.inference
  unfold Resolver.meetValue
  rw [← h.expectations_eq]
  cases innermost? r.expectations with
  | none => exact h
  | some expected =>
    refine h.record { hi with valueTypes := hi.valueTypes.insert value expected.type
                              valueDefaults := ?_ }
    cases expected.default with
    | none => exact hi.valueDefaults
    | some default => exact hi.valueDefaults.insert value default

/-- The scope that a walk enters with a type is a type that the definition is resolved through. -/
theorem enterScope_known {definition : NodeId} (inside : r.definition = some definition)
    {type : Option Text} {set : Option NodeId}
    (known : ∀ name ∈ (r.enterScope type set).referenced definition, i.AgreeOn (.type name) j) :
    ∀ name, type = some name → i.AgreeOn (.type name) j := fun name hn =>
  known name ((mem_referenced_enterScope type set).2 (.inr ⟨inside, hn.symm⟩))

/-- A field is looked up alike in a type that the indexes agree on. -/
theorem Alike.field_eq (h : Alike i j off r s) (f : Field SelectionSet) :
    ((innermost? r.scopes).bind fun type =>
      (textOf? f.name).bind fun name => (i.fields.membersByName type name).head?) =
    (innermost? s.scopes).bind fun type =>
      (textOf? f.name).bind fun name => (j.fields.membersByName type name).head? := by
  rw [← h.scopes_eq]
  cases top : innermost? r.scopes with
  | none => rfl
  | some type =>
    have agree := h.scopes type (mem_of_innermost top)
    simp only [Option.bind_some, agree.1.membersByName]

theorem Alike.enterField (h : Alike i j off r s) {definition : NodeId}
    (inside : r.definition = some definition) (f : Field SelectionSet)
    (known : ∀ type ∈ (r.enterField i revision f).referenced definition,
      i.AgreeOn (.type type) j) :
    Alike i j off (r.enterField i revision f) (s.enterField j revision f) := by
  unfold Resolver.enterField at known ⊢
  dsimp only at known ⊢
  rw [← h.field_eq f]
  split at known
  · exact h.pushScope fun _ hn => nomatch hn
  · next d _ =>
    have hi := h.inference
    refine Alike.enterScope ?_ (enterScope_known ?_ known) _
    · refine Alike.recordArguments ?_ f.arguments _
      exact h.record { hi with fields := hi.fields.insert _ d }
    · rw [recordArguments_definition]
      exact inside

theorem Alike.enterDirective (h : Alike i j off r s) (d : Directive)
    (names : ∀ name ∈ (Node.directive d).references, i.AgreeOn name j) :
    Alike i j off (r.enterDirective i revision d) (s.enterDirective j revision d) := by
  have lookup : (textOf? d.name).bind i.directives.first? =
      (textOf? d.name).bind j.directives.first? := by
    cases hn : textOf? d.name with
    | none => rfl
    | some name =>
      have agree : i.AgreeOn (.directive name) j := names _ (by simp [Node.references, hn])
      exact congrArg List.head? agree
  have hi := h.inference
  unfold Resolver.enterDirective
  rw [← lookup]
  cases (textOf? d.name).bind i.directives.first? with
  | none => exact h
  | some found =>
    refine Alike.recordArguments ?_ d.arguments _
    exact h.record { hi with directives := hi.directives.insert _ found }

theorem Alike.enterSpread (h : Alike i j off r s) (spread : FragmentSpread)
    (names : ∀ name ∈ (Node.spread spread).references, i.AgreeOn name j) :
    Alike i j off (r.enterSpread i revision spread) (s.enterSpread j revision spread) := by
  have agree : i.AgreeOn (.fragment spread.name.text) j := names _ (by simp [Node.references])
  have lookup : i.fragments.first? spread.name.text = j.fragments.first? spread.name.text :=
    congrArg List.head? agree
  have hi := h.inference
  unfold Resolver.enterSpread
  rw [← lookup]
  cases i.fragments.first? spread.name.text with
  | none => exact h
  | some found =>
    exact h.record { hi with fragments := hi.fragments.insert _ found
                             spreads := hi.spreads.insertNew found.id ⟨revision, spread⟩ }

theorem Alike.enterArgument (h : Alike i j off r s) (a : Argument) :
    Alike i j off (r.enterArgument revision a) (s.enterArgument revision a) := by
  have hi := h.inference
  unfold Resolver.enterArgument
  dsimp only
  rw [← h.argumentScopes_eq]
  split
  · exact h.expect none
  · next d _ =>
    refine Alike.expect ?_ (expectedBy d)
    exact h.record { hi with arguments := hi.arguments.insert _ d }

theorem Alike.enterObject (h : Alike i j off r s) {definition : NodeId}
    (inside : r.definition = some definition)
    (known : ∀ type ∈ r.enterObject.referenced definition, i.AgreeOn (.type type) j) :
    Alike i j off r.enterObject s.enterObject := by
  unfold Resolver.enterObject at known ⊢
  dsimp only at known ⊢
  rw [← h.expectations_eq]
  generalize (innermost? r.expectations).bind (fun expected => expected.type.value.innermostName?) =
    type at known ⊢
  cases type with
  | none => exact h.pushInputObject fun _ hn => nomatch hn
  | some name =>
    refine (h.reference name).pushInputObject fun type hn => known type ?_
    exact (mem_referenced_reference name).2 (.inr ⟨inside, (Option.some.inj hn).symm⟩)

theorem Alike.enterObjectField (h : Alike i j off r s) (name : Token) :
    Alike i j off (r.enterObjectField i name) (s.enterObjectField j name) := by
  have lookup : ((innermost? r.inputObjects).bind fun type =>
      (i.inputFields.membersByName type name.text).head?.bind expectedBy) =
      (innermost? s.inputObjects).bind fun type =>
        (j.inputFields.membersByName type name.text).head?.bind expectedBy := by
    rw [← h.inputObjects_eq]
    cases top : innermost? r.inputObjects with
    | none => rfl
    | some type =>
      have agree := h.inputObjects type (mem_of_innermost top)
      simp only [Option.bind_some, agree.2.membersByName]
  unfold Resolver.enterObjectField
  rw [lookup]
  exact h.expect _

theorem Alike.enterArguments (h : Alike i j off r s) {a : Arguments}
    (own : (Node.arguments a).id revision ∉ off.given) :
    Alike i j off (r.enter i revision (.arguments a)) (s.enter j revision (.arguments a)) := by
  have found := h.inference.argumentLists _ own
  have e := h.surroundings
  refine ⟨?_, h.definition, h.inference, h.scopes, h.inputObjects⟩
  show ({ r.surroundings with argumentScopes :=
      r.inference.argumentLists.get? ((Node.arguments a).id revision) ::
        r.surroundings.argumentScopes } : Surroundings) =
    { s.surroundings with argumentScopes :=
      s.inference.argumentLists.get? ((Node.arguments a).id revision) ::
        s.surroundings.argumentScopes }
  rw [e, found]

/-- Walks stay alike where they enter a node that the indexes agree on, if argument lists that are
entered are not off. -/
theorem Alike.enter (h : Alike i j off r s) {definition : NodeId}
    (inside : r.definition = some definition) (n : Node)
    (known : ∀ type ∈ (r.enter i revision n).referenced definition, i.AgreeOn (.type type) j)
    (names : ∀ name ∈ n.lookups, i.AgreeOn name j)
    (schema : n.isOperation = true → i.AgreeOn .schema j)
    (own : ∀ a, n = .arguments a → n.id revision ∉ off.given) :
    Alike i j off (r.enter i revision n) (s.enter j revision n) := by
  cases n with
  | operation d =>
    have result := h.enterScope (enterScope_known inside known) (setId revision d.selectionSet.value?)
    show Alike i j off _ (s.enterScope (j.rootType? d.kind) _)
    rw [← (schema rfl).rootType d.kind]
    exact result
  | fragment d => exact h.enterScope (enterScope_known inside known) _
  | inline f =>
    have result := h.enterScope (enterScope_known inside known) (setId revision f.selectionSet.value?)
    unfold Resolver.enter
    dsimp only
    rw [← h.scopes_eq]
    exact result
  | field f => exact h.enterField inside f known
  | directive d => exact h.enterDirective d names
  | spread spread => exact h.enterSpread spread names
  | arguments a => exact h.enterArguments (own a rfl)
  | argument a => exact h.enterArgument a
  | value v =>
    cases v with
    | list items =>
      show Alike i j off _ (s.expect ((innermost? s.expectations).bind ExpectedValue.item?))
      rw [← h.expectations_eq]
      exact h.expect _
    | object fields => exact h.enterObject inside known
    | _ => exact h
  | objectField f =>
    cases f with
    | mk name colon value => exact h.enterObjectField name
  | variableDefinition d => exact h.expect _
  | inputValueDefinition d => exact h.expect _
  | _ => exact h

theorem leave_inference (n : Node) : (r.leave n).inference = r.inference := by
  cases n with
  | value v => cases v <;> rfl
  | _ => rfl

theorem leave_definition (n : Node) : (r.leave n).definition = r.definition := by
  cases n with
  | value v => cases v <;> rfl
  | _ => rfl

theorem mem_scopes_leave (n : Node) {type : Option Text} (h : type ∈ (r.leave n).scopes) :
    type ∈ r.scopes := by
  cases n with
  | operation d => exact List.mem_of_mem_drop h
  | fragment d => exact List.mem_of_mem_drop h
  | inline f => exact List.mem_of_mem_drop h
  | field f => exact List.mem_of_mem_drop h
  | value v => cases v <;> exact h
  | _ => exact h

theorem mem_inputObjects_leave (n : Node) {type : Option Text}
    (h : type ∈ (r.leave n).inputObjects) : type ∈ r.inputObjects := by
  cases n with
  | value v =>
    cases v with
    | object fields => exact List.mem_of_mem_drop h
    | _ => exact h
  | _ => exact h

theorem Alike.leave (h : Alike i j off r s) (n : Node) :
    Alike i j off (r.leave n) (s.leave n) where
  surroundings := leave_surroundings_congr h.surroundings n
  definition := by rw [leave_definition, leave_definition, h.definition]
  inference := by
    rw [leave_inference, leave_inference]
    exact h.inference
  scopes := fun type ht => h.scopes type (mem_scopes_leave n ht)
  inputObjects := fun type ht => h.inputObjects type (mem_inputObjects_leave n ht)

end Resolver

end GraphQL
