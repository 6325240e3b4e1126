import Mathlib.Data.List.Induction
import GraphQL.Database.Index

/-! # What an index files under a name

`Index.AgreeOn` holds of two indexes that file the same under one name. What an index files under a
name is told by the definitions that provide it, in order:

* `Index.add_agreeOn_self`: a definition changes nothing under names it does not provide,
* `Index.build_agreeOn`: revisions with the same providers of a name agree on it. -/

namespace GraphQL

set_option autoImplicit false

variable {α δ : Type}

/-! ## Members of one type -/

/-- Both bind the same members to a type, under the same names. -/
structure Bindings.AgreeOn (type : Text) (a b : Bindings α) : Prop where
  members : a.members type = b.members type
  membersByName : ∀ name, a.membersByName type name = b.membersByName type name

namespace Bindings

variable {type : Text} {a b : Bindings α}

theorem AgreeOn.insert (h : AgreeOn type a b) (t name : Text) (member : α) :
    AgreeOn type (a.insert t name member) (b.insert t name member) where
  members := by rw [members_insert, members_insert, h.members]
  membersByName n := by rw [membersByName_insert, membersByName_insert, h.membersByName]

theorem insert_agreeOn {t : Text} (ht : type ≠ t) (name : Text) (member : α) (a : Bindings α) :
    AgreeOn type a (a.insert t name member) where
  members := by rw [members_insert, if_neg ht]
  membersByName n := by rw [membersByName_insert, if_neg fun h => ht h.1]

end Bindings

/-- Both bind the same members to a type, in each layer. -/
def LayeredBindings.AgreeOn (type : Text) (a b : LayeredBindings α) : Prop :=
  a.definitions.AgreeOn type b.definitions ∧ a.extensions.AgreeOn type b.extensions

namespace LayeredBindings

variable {type : Text} {a b c : LayeredBindings α}

theorem AgreeOn.refl (type : Text) (a : LayeredBindings α) : AgreeOn type a a :=
  ⟨⟨rfl, fun _ => rfl⟩, ⟨rfl, fun _ => rfl⟩⟩

theorem AgreeOn.symm (h : AgreeOn type a b) : AgreeOn type b a :=
  ⟨⟨h.1.members.symm, fun n => (h.1.membersByName n).symm⟩,
    ⟨h.2.members.symm, fun n => (h.2.membersByName n).symm⟩⟩

theorem AgreeOn.trans (h : AgreeOn type a b) (h' : AgreeOn type b c) : AgreeOn type a c :=
  ⟨⟨h.1.members.trans h'.1.members, fun n => (h.1.membersByName n).trans (h'.1.membersByName n)⟩,
    ⟨h.2.members.trans h'.2.members, fun n => (h.2.membersByName n).trans (h'.2.membersByName n)⟩⟩

theorem AgreeOn.membersByName (h : AgreeOn type a b) (name : Text) :
    a.membersByName type name = b.membersByName type name := by
  unfold LayeredBindings.membersByName
  rw [h.1.membersByName, h.2.membersByName]

theorem AgreeOn.insert (h : AgreeOn type a b) (layer : Layer) (t name : Text) (member : α) :
    AgreeOn type (a.insert layer t name member) (b.insert layer t name member) := by
  cases layer with
  | definition => exact ⟨h.1.insert t name member, h.2⟩
  | extension => exact ⟨h.1, h.2.insert t name member⟩

theorem insert_agreeOn {t : Text} (ht : type ≠ t) (layer : Layer) (name : Text) (member : α)
    (a : LayeredBindings α) : AgreeOn type a (a.insert layer t name member) := by
  obtain ⟨same, same'⟩ := AgreeOn.refl type a
  cases layer with
  | definition => exact ⟨Bindings.insert_agreeOn ht name member _, same'⟩
  | extension => exact ⟨same, Bindings.insert_agreeOn ht name member _⟩

variable {a b : LayeredBindings (Located α)}

theorem AgreeOn.bindMembers (h : AgreeOn type a b) (layer : Layer) (revision : Nat) (t : Text)
    (name : α → Text) (members : List α) :
    AgreeOn type (bindMembers layer revision t name members a)
      (bindMembers layer revision t name members b) := by
  unfold GraphQL.bindMembers
  induction members generalizing a b with
  | nil => exact h
  | cons member members ih => exact ih (h.insert layer t (name member) ⟨revision, member⟩)

theorem bindMembers_agreeOn {t : Text} (ht : type ≠ t) (layer : Layer) (revision : Nat)
    (name : α → Text) (members : List α) (a : LayeredBindings (Located α)) :
    AgreeOn type a (bindMembers layer revision t name members a) := by
  unfold GraphQL.bindMembers
  induction members generalizing a with
  | nil => exact .refl type a
  | cons member members ih => exact (insert_agreeOn ht layer _ _ a).trans (ih _)

end LayeredBindings

/-! ## Filing under a name -/

theorem get_fileUnder (name : Option Text) (a : α) (m : MultiMap Text α) (n : Text) :
    (fileUnder name a m).get n = if name = some n then m.get n ++ [a] else m.get n := by
  cases name with
  | none => rfl
  | some name =>
    show (m.insert name a).get n = _
    rw [MultiMap.get_insert]
    by_cases h : n = name
    · rw [if_pos h, if_pos (h ▸ rfl)]
    · rw [if_neg h, if_neg fun e => h (Option.some.inj e).symm]

namespace Index

/-- Both file the same under a name. -/
def AgreeOn (name : Dependency) (i j : Index) : Prop :=
  match name with
  | .root _ => True
  | .schema => i.schemas = j.schemas ∧ i.schemaExtensions = j.schemaExtensions
  | .type name => i.fields.AgreeOn name j.fields ∧ i.inputFields.AgreeOn name j.inputFields
  | .directive name => i.directives.get name = j.directives.get name
  | .fragment name => i.fragments.get name = j.fragments.get name

variable {name : Dependency} {i j k : Index}

theorem AgreeOn.refl (name : Dependency) (i : Index) : AgreeOn name i i := by
  cases name with
  | root kind => trivial
  | schema => exact ⟨rfl, rfl⟩
  | type name => exact ⟨.refl _ _, .refl _ _⟩
  | directive name => exact Eq.refl _
  | fragment name => exact Eq.refl _

theorem AgreeOn.symm (h : AgreeOn name i j) : AgreeOn name j i := by
  cases name with
  | root kind => trivial
  | schema => exact ⟨h.1.symm, h.2.symm⟩
  | type name => exact ⟨h.1.symm, h.2.symm⟩
  | directive name => exact Eq.symm h
  | fragment name => exact Eq.symm h

theorem AgreeOn.trans (h : AgreeOn name i j) (h' : AgreeOn name j k) : AgreeOn name i k := by
  cases name with
  | root kind => trivial
  | schema => exact ⟨h.1.trans h'.1, h.2.trans h'.2⟩
  | type name => exact ⟨h.1.trans h'.1, h.2.trans h'.2⟩
  | directive name => exact Eq.trans h h'
  | fragment name => exact Eq.trans h h'

/-- Indexes that agree on the schema have the same root types. -/
theorem AgreeOn.rootType (h : AgreeOn .schema i j) (kind : OperationKind) :
    i.rootType? kind = j.rootType? kind := by
  unfold rootType? rootTypes
  rw [h.1, h.2]

/-! ## Members of a type -/

/-- The names that are not filed by the members of a type. -/
structure SameDefinitions (i j : Index) : Prop where
  schemas : i.schemas = j.schemas
  schemaExtensions : i.schemaExtensions = j.schemaExtensions
  directives : i.directives = j.directives
  fragments : i.fragments = j.fragments

theorem addMembers_sameDefinitions (layer : Layer) (revision : Nat) (type : Option Text)
    (body : TypeBody δ) (i : Index) : i.SameDefinitions (i.addMembers layer revision type body) := by
  cases type with
  | none => exact ⟨rfl, rfl, rfl, rfl⟩
  | some type => cases body <;> exact ⟨rfl, rfl, rfl, rfl⟩

theorem AgreeOn.addMembers {t : Text} (h : AgreeOn (.type t) i j) (layer : Layer) (revision : Nat)
    (type : Option Text) (body : TypeBody δ) :
    AgreeOn (.type t) (i.addMembers layer revision type body)
      (j.addMembers layer revision type body) := by
  obtain ⟨hf, hi⟩ := h
  cases type with
  | none => exact ⟨hf, hi⟩
  | some type =>
    cases body with
    | object body => exact ⟨hf.bindMembers _ _ _ _ _, hi⟩
    | interface body => exact ⟨hf.bindMembers _ _ _ _ _, hi⟩
    | input directives fields => exact ⟨hf, hi.bindMembers _ _ _ _ _⟩
    | _ => exact ⟨hf, hi⟩

theorem addMembers_agreeOn {t : Text} {type : Option Text} (ht : type ≠ some t) (layer : Layer)
    (revision : Nat) (body : TypeBody δ) (i : Index) :
    AgreeOn (.type t) i (i.addMembers layer revision type body) := by
  cases type with
  | none => exact .refl _ i
  | some type =>
    have ht : t ≠ type := fun h => ht (h ▸ rfl)
    cases body with
    | object body => exact ⟨LayeredBindings.bindMembers_agreeOn ht _ _ _ _ _, .refl _ _⟩
    | interface body => exact ⟨LayeredBindings.bindMembers_agreeOn ht _ _ _ _ _, .refl _ _⟩
    | input directives fields =>
      exact ⟨.refl _ _, LayeredBindings.bindMembers_agreeOn ht _ _ _ _ _⟩
    | _ => exact ⟨.refl _ _, .refl _ _⟩

theorem AgreeOn.of_sameDefinitions (same : i.SameDefinitions j)
    (types : ∀ t, name = .type t → AgreeOn name i j) : AgreeOn name i j := by
  cases name with
  | root kind => trivial
  | schema => exact ⟨same.schemas, same.schemaExtensions⟩
  | type t => exact types t rfl
  | directive n => exact congrArg (MultiMap.get · n) same.directives
  | fragment n => exact congrArg (MultiMap.get · n) same.fragments

/-! ## Single definitions -/

theorem get_fileUnder_other {f : Text → Dependency} {name : Option Text} {n : Text}
    (h : name.map f ≠ some (f n)) (a : α) (m : MultiMap Text α) :
    m.get n = (fileUnder name a m).get n := by
  rw [get_fileUnder, if_neg]
  rintro rfl
  exact h rfl

theorem add_operation_agreeOn (name : Dependency) (revision : Nat) (d : OperationDefinition)
    (i : Index) : AgreeOn name i (i.add revision (.operation d)) := by
  unfold Index.add
  dsimp only
  split <;> exact .of_sameDefinitions ⟨rfl, rfl, rfl, rfl⟩ fun _ h => h ▸ ⟨.refl _ _, .refl _ _⟩

/-- A definition files nothing under names that it does not provide. -/
theorem add_agreeOn_self {d : Definition} (h : d.product? ≠ some name) (revision : Nat) (i : Index) :
    AgreeOn name i (i.add revision d) := by
  cases d with
  | operation d => exact add_operation_agreeOn name revision d i
  | fragment d =>
    cases name with
    | root kind => trivial
    | schema => exact ⟨rfl, rfl⟩
    | type t => exact ⟨.refl _ _, .refl _ _⟩
    | directive n => exact Eq.refl _
    | fragment n => exact get_fileUnder_other h _ i.fragments
  | schema d =>
    cases name with
    | root kind => trivial
    | schema => exact absurd rfl h
    | type t => exact ⟨.refl _ _, .refl _ _⟩
    | directive n => exact Eq.refl _
    | fragment n => exact Eq.refl _
  | schemaExtension d =>
    cases name with
    | root kind => trivial
    | schema => exact absurd rfl h
    | type t => exact ⟨.refl _ _, .refl _ _⟩
    | directive n => exact Eq.refl _
    | fragment n => exact Eq.refl _
  | directive d =>
    cases name with
    | root kind => trivial
    | schema => exact ⟨rfl, rfl⟩
    | type t => exact ⟨.refl _ _, .refl _ _⟩
    | directive n => exact get_fileUnder_other h _ i.directives
    | fragment n => exact Eq.refl _
  | type d =>
    have same := addMembers_sameDefinitions .definition revision (textOf? d.name) d.body
      { i with types := fileUnder (textOf? d.name) ⟨revision, d⟩ i.types }
    refine .of_sameDefinitions ⟨same.1, same.2, same.3, same.4⟩ ?_
    rintro t rfl
    have other : textOf? d.name ≠ some t := fun e => h (congrArg (Option.map Dependency.type) e)
    exact addMembers_agreeOn other .definition revision d.body
      { i with types := fileUnder (textOf? d.name) ⟨revision, d⟩ i.types }
  | typeExtension d =>
    have same := addMembers_sameDefinitions .extension revision (textOf? d.name) d.body
      { i with typeExtensions := fileUnder (textOf? d.name) ⟨revision, d⟩ i.typeExtensions }
    refine .of_sameDefinitions ⟨same.1, same.2, same.3, same.4⟩ ?_
    rintro t rfl
    have other : textOf? d.name ≠ some t := fun e => h (congrArg (Option.map Dependency.type) e)
    exact addMembers_agreeOn other .extension revision d.body
      { i with typeExtensions := fileUnder (textOf? d.name) ⟨revision, d⟩ i.typeExtensions }

theorem get_fileUnder_congr {n : Text} {m m' : MultiMap Text α} (h : m.get n = m'.get n)
    (name : Option Text) (a : α) : (fileUnder name a m).get n = (fileUnder name a m').get n := by
  rw [get_fileUnder, get_fileUnder, h]

/-- Two indexes that agree on a name agree on it behind one more definition. -/
theorem AgreeOn.add (h : AgreeOn name i j) (revision : Nat) (d : Definition) :
    AgreeOn name (i.add revision d) (j.add revision d) := by
  by_cases own : d.product? = some name
  · cases d with
    | operation d => cases own
    | fragment d =>
      obtain ⟨n, -, rfl⟩ := Option.map_eq_some_iff.1 own
      exact get_fileUnder_congr h (textOf? d.name) ⟨revision, d⟩
    | schema d =>
      cases own
      refine ⟨?_, h.2⟩
      show i.schemas ++ [⟨revision, d⟩] = j.schemas ++ [⟨revision, d⟩]
      rw [h.1]
    | schemaExtension d =>
      cases own
      refine ⟨h.1, ?_⟩
      show i.schemaExtensions ++ [⟨revision, d⟩] = j.schemaExtensions ++ [⟨revision, d⟩]
      rw [h.2]
    | directive d =>
      obtain ⟨n, -, rfl⟩ := Option.map_eq_some_iff.1 own
      exact get_fileUnder_congr h (textOf? d.name) ⟨revision, d⟩
    | type d =>
      obtain ⟨n, -, rfl⟩ := Option.map_eq_some_iff.1 own
      have filed : AgreeOn (.type n)
          { i with types := fileUnder (textOf? d.name) ⟨revision, d⟩ i.types }
          { j with types := fileUnder (textOf? d.name) ⟨revision, d⟩ j.types } := h
      exact filed.addMembers .definition revision (textOf? d.name) d.body
    | typeExtension d =>
      obtain ⟨n, -, rfl⟩ := Option.map_eq_some_iff.1 own
      have filed : AgreeOn (.type n)
          { i with typeExtensions := fileUnder (textOf? d.name) ⟨revision, d⟩ i.typeExtensions }
          { j with typeExtensions := fileUnder (textOf? d.name) ⟨revision, d⟩ j.typeExtensions } := h
      exact filed.addMembers .extension revision (textOf? d.name) d.body
  · exact ((add_agreeOn_self own revision i).symm.trans h).trans (add_agreeOn_self own revision j)

/-! ## Revisions -/

/-- The definitions of some revisions, with the numbers of their revisions. -/
def filed (revisions : List Revision) : List (Nat × Definition) :=
  revisions.flatMap fun r => r.tree.definitions.map fun d => (r.id, d)

/-- The definitions that provide a name. -/
def providers (name : Dependency) (revisions : List Revision) : List (Nat × Definition) :=
  (filed revisions).filter fun entry => entry.2.product? == some name

theorem addRevision_foldl (i : Index) (revisions : List Revision) :
    revisions.foldl addRevision i =
      (filed revisions).foldl (fun i entry => i.add entry.1 entry.2) i := by
  induction revisions generalizing i with
  | nil => rfl
  | cons r revisions ih =>
    rw [List.foldl_cons, ih, filed, filed, List.flatMap_cons, List.foldl_append, List.foldl_map,
      addRevision]

/-- What is filed under a name is told by its providers. -/
theorem foldl_add_agreeOn (name : Dependency) (i : Index) (entries : List (Nat × Definition)) :
    AgreeOn name (entries.foldl (fun i entry => i.add entry.1 entry.2) i)
      ((entries.filter fun entry => entry.2.product? == some name).foldl
        (fun i entry => i.add entry.1 entry.2) i) := by
  induction entries using List.reverseRecOn with
  | nil => exact .refl name i
  | append_singleton entries entry ih =>
    rw [List.filter_append, List.foldl_append, List.foldl_append]
    by_cases own : entry.2.product? = some name
    · rw [List.filter_cons_of_pos (by simpa using own)]
      exact ih.add entry.1 entry.2
    · rw [List.filter_cons_of_neg (by simpa using own)]
      exact (add_agreeOn_self own entry.1 _).symm.trans ih

/-- Revisions that provide a name alike have indexes that agree on it. -/
theorem build_agreeOn {revisions revisions' : List Revision}
    (h : providers name revisions = providers name revisions') :
    AgreeOn name (build revisions) (build revisions') := by
  have one := foldl_add_agreeOn name {} (filed revisions)
  have other := foldl_add_agreeOn name {} (filed revisions')
  unfold providers at h
  rw [h] at one
  rw [build, build, addRevision_foldl, addRevision_foldl]
  exact one.trans other.symm

end Index

end GraphQL
