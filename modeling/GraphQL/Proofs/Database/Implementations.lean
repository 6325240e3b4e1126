import GraphQL.Proofs.Database.Lookups
import GraphQL.Production.Document

/-! # Implementations and members

That a type implements an interface is filed twice: among the members of the type, where those of
its extensions stand apart, and the other way around, where they do not. Both tables hold what the
definitions and extensions say.

* `Index.get_implementations`: an interface has the name of a type for each time that it is said
  to implement it,
* `LayeredBindings.Lists.named_iff`: a type has a member of some name if any definition or extension
  of it has one,
* `Database.relations_agree`: so both ways of asking give the same answer. -/

namespace GraphQL

set_option autoImplicit false

variable {α δ : Type}

/-! ## The list of implementing types -/

/-- The name of a type, once for each time that its body has an interface. A type without name
implements nothing. -/
def TypeBody.implementing (interface : Text) (body : TypeBody δ) (type : Option Text) : List Text :=
  match type with
  | none => []
  | some type => (body.interfaces.filter fun i => i.name.text == interface).map fun _ => type

/-- The name of the type that a definition or an extension is of, once for each time that it says
to implement an interface. -/
def Definition.implementing (interface : Text) : Definition → List Text
  | .type d => d.body.implementing interface (textOf? d.name)
  | .typeExtension d => d.body.implementing interface (textOf? d.name)
  | _ => []

/-- One value under the keys of a list comes under a key as often as the list has the key. -/
theorem MultiMap.get_foldl_insert {ν : Type} (key : α → Text) (value : ν) (list : List α)
    (m : MultiMap Text ν) (k : Text) :
    (list.foldl (fun m a => m.insert (key a) value) m).get k =
      m.get k ++ (list.filter fun a => key a == k).map fun _ => value := by
  induction list generalizing m with
  | nil => simp
  | cons a list ih =>
    rw [List.foldl_cons, ih, MultiMap.get_insert]
    by_cases own : key a = k
    · simp [own]
    · simp [own, Ne.symm own]

namespace Index

theorem get_implementations_addMembers (into : Layer) (revision : Nat) (type : Option Text)
    (body : TypeBody δ) (index : Index) (interface : Text) :
    (index.addMembers into revision type body).implementations.get interface =
      index.implementations.get interface ++ body.implementing interface type := by
  cases type with
  | none => exact (List.append_nil _).symm
  | some type =>
    cases body with
    | object body => exact MultiMap.get_foldl_insert _ type _ _ interface
    | interface body => exact MultiMap.get_foldl_insert _ type _ _ interface
    | _ => exact (List.append_nil _).symm

theorem get_implementations_add (index : Index) (revision : Nat) (d : Definition)
    (interface : Text) : (index.add revision d).implementations.get interface =
      index.implementations.get interface ++ d.implementing interface := by
  cases d with
  | type d => exact get_implementations_addMembers .definition revision _ d.body _ interface
  | typeExtension d => exact get_implementations_addMembers .extension revision _ d.body _ interface
  | operation d =>
    obtain ⟨type, name, vars, directives, set⟩ := d
    cases name <;> exact (List.append_nil _).symm
  | _ => exact (List.append_nil _).symm

theorem get_implementations_foldl (entries : List (Nat × Definition)) (index : Index)
    (interface : Text) :
    (entries.foldl (fun i entry => i.add entry.1 entry.2) index).implementations.get interface =
      index.implementations.get interface ++
        entries.flatMap fun entry => entry.2.implementing interface := by
  induction entries generalizing index with
  | nil => exact (List.append_nil _).symm
  | cons entry entries ih =>
    rw [List.foldl_cons, ih, get_implementations_add, List.flatMap_cons, List.append_assoc]

/-- The types that implement an interface are those that say so, in the order of the documents. -/
theorem get_implementations (revisions : List Revision) (interface : Text) :
    (build revisions).implementations.get interface =
      (filed revisions).flatMap fun entry => entry.2.implementing interface := by
  rw [build, addRevision_foldl, get_implementations_foldl]
  rfl

end Index

/-! ## Members by name -/

section

variable (name : α → Text) (parts : (δ : Type) → TypeBody δ → List α)

/-- A definition or an extension has the name of a type and a member of some name. -/
def Definition.Gives (d : Definition) (type member : Text) : Prop :=
  match d with
  | .type d => textOf? d.name = some type ∧ ∃ m ∈ parts _ d.body, name m = member
  | .typeExtension d => textOf? d.name = some type ∧ ∃ m ∈ parts _ d.body, name m = member
  | _ => False

variable {name parts} {entries : List (Nat × Definition)} {type member : Text}

theorem exists_mem_located {pick : Definition → Option δ} {p : Located δ → Prop} :
    (∃ d ∈ located pick entries, p d) ↔
      ∃ entry ∈ entries, ∃ d, pick entry.2 = some d ∧ p ⟨entry.1, d⟩ := by
  constructor
  · rintro ⟨d, hd, h⟩
    obtain ⟨entry, filed, value, picked, rfl⟩ := mem_located.1 hd
    exact ⟨entry, filed, value, picked, h⟩
  · rintro ⟨entry, filed, value, picked, h⟩
    exact ⟨_, mem_located.2 ⟨entry, filed, value, picked, rfl⟩, h⟩

theorem exists_mem_membersFor {τ : Type} {typeName : τ → Option Text} {own : τ → List α}
    {list : List (Located τ)} :
    (∃ m ∈ membersFor typeName own type list, name m.value = member) ↔
      ∃ d ∈ list, typeName d.value = some type ∧ ∃ m ∈ own d.value, name m = member := by
  constructor
  · rintro ⟨m, hm, h⟩
    obtain ⟨d, hd, hm⟩ := List.mem_flatMap.1 hm
    obtain ⟨value, hvalue, rfl⟩ := List.mem_map.1 hm
    exact ⟨d, (List.mem_filter.1 hd).1, beq_iff_eq.1 (List.mem_filter.1 hd).2, value, hvalue, h⟩
  · rintro ⟨d, hd, named, value, hvalue, h⟩
    exact ⟨_, List.mem_flatMap.2 ⟨d, List.mem_filter.2 ⟨hd, beq_iff_eq.2 named⟩,
      List.mem_map_of_mem hvalue⟩, h⟩

/-- A definition gives a member in one of the layers. -/
theorem Definition.gives_iff {d : Definition} : d.Gives name parts type member ↔
    (∃ own, d.type? = some own ∧
      textOf? own.name = some type ∧ ∃ m ∈ parts _ own.body, name m = member) ∨
    ∃ own, d.typeExtension? = some own ∧
      textOf? own.name = some type ∧ ∃ m ∈ parts _ own.body, name m = member := by
  cases d <;> simp [Gives, type?, typeExtension?]

namespace LayeredBindings.Lists

variable {b : LayeredBindings (Located α)} (h : b.Lists name parts entries)

include h

/-- A type has a member of some name if any of the definitions gives it. -/
theorem named_iff : (∃ m ∈ b.members type, name m.value = member) ↔
    ∃ entry ∈ entries, entry.2.Gives name parts type member := by
  simp only [h.members, List.mem_append, or_and_right, exists_or, membersIn, exists_mem_membersFor,
    exists_mem_located, Definition.gives_iff, and_or_left]

theorem membersByName_iff : (!(b.membersByName type member).isEmpty) = true ↔
    ∃ m ∈ b.members type, name m.value = member := by
  rw [h.part, Bool.not_eq_true', List.isEmpty_eq_false_iff_exists_mem]
  simp only [List.mem_filter, beq_iff_eq]

end LayeredBindings.Lists

end

/-! ## Both directions -/

theorem nodup_eraseDups (names : List Text) : names.eraseDups.Nodup := by
  have keys := MultiMap.keys_fileAll_nodup some names
  rwa [MultiMap.keys_fileAll, List.filterMap_some] at keys

theorem TypeBody.mem_implementing {interface : Text} {body : TypeBody δ} {owner : Option Text}
    {type : Text} : type ∈ body.implementing interface owner ↔
      owner = some type ∧ ∃ i ∈ body.interfaces, i.name.text = interface := by
  cases owner with
  | none => simp [implementing]
  | some owner =>
    rw [implementing, List.mem_map, Option.some.injEq]
    simp only [List.mem_filter, beq_iff_eq]
    exact ⟨fun ⟨i, own, same⟩ => ⟨same, i, own⟩, fun ⟨same, i, own⟩ => ⟨i, own, same⟩⟩

/-- The name of a type is listed by the definitions that give it the interface. -/
theorem Definition.mem_implementing {d : Definition} {type interface : Text} :
    type ∈ d.implementing interface ↔
      d.Gives (fun i => i.name.text) @TypeBody.interfaces type interface := by
  cases d with
  | type d => exact TypeBody.mem_implementing
  | typeExtension d => exact TypeBody.mem_implementing
  | _ => exact List.mem_nil_iff type

namespace Index

theorem mem_implementationsOf (revisions : List Revision) (type interface : Text) :
    type ∈ (build revisions).implementationsOf interface ↔
      (build revisions).implementsInterface type interface = true := by
  have lists := (build_filled revisions).lists
  rw [implementsInterface, lists.interfaces.membersByName_iff, lists.interfaces.named_iff,
    implementationsOf, get_implementations, List.mem_flatMap]
  simp only [Definition.mem_implementing]

theorem isUnionMember_iff (revisions : List Revision) (type union : Text) :
    (build revisions).isUnionMember type union = true ↔
      type ∈ ((build revisions).unionMembers.members union).map fun m => m.value.name.text := by
  rw [isUnionMember, (build_filled revisions).lists.unionMembers.membersByName_iff, List.mem_map]

theorem possibleTypes_interface {index : Index} {interface : Text}
    (kind : index.typeKind? interface = some .interface) : index.possibleTypes interface =
      ((index.implementationsOf interface).filter index.isObjectType).eraseDups := by
  rw [possibleTypes, kind]

theorem possibleTypes_union {index : Index} {union : Text}
    (kind : index.typeKind? union = some .union) : index.possibleTypes union =
      ((index.unionMembers.members union).map fun m => m.value.name.text).eraseDups := by
  rw [possibleTypes, kind]

end Index

/-- The types listed for an interface are those that implement it. Without repetition, the possible
types of an interface are the object types among them, and those of a union are its members. -/
theorem Database.relations_agree (revisions : List Revision) (reuse : Table Nat Inference)
    (type other : Text) :
    let index := (Database.build revisions reuse).index
    (type ∈ index.implementationsOf other ↔ index.implementsInterface type other = true) ∧
    (index.typeKind? other = some .interface → (index.possibleTypes other).Nodup ∧
      (type ∈ index.possibleTypes other ↔
        index.implementsInterface type other = true ∧ index.isObjectType type = true)) ∧
    (index.typeKind? other = some .union → (index.possibleTypes other).Nodup ∧
      (type ∈ index.possibleTypes other ↔ index.isUnionMember type other = true)) := by
  intro index
  have implements : type ∈ index.implementationsOf other ↔
      index.implementsInterface type other = true :=
    Index.mem_implementationsOf revisions type other
  refine ⟨implements, fun kind => ?_, fun kind => ?_⟩
  · rw [Index.possibleTypes_interface kind, List.mem_eraseDups, List.mem_filter, implements]
    exact ⟨nodup_eraseDups _, Iff.rfl⟩
  · rw [Index.possibleTypes_union kind, List.mem_eraseDups]
    exact ⟨nodup_eraseDups _, (Index.isUnionMember_iff revisions type other).symm⟩

/-- A type and an interface that implement another one, and a union; with repetitions. -/
def pets : Revision :=
  ⟨1, (parse 1 ("interface Pet type Dog implements Pet & Pet interface Tame implements Pet " ++
    "union Any = Dog | Cat | Dog")).tree⟩

/-- Extensions of a type that is not defined and of one that is. -/
def morePets : Revision :=
  ⟨2, (parse 2 "extend type Cat implements Pet extend type Dog implements Pet").tree⟩

/-- The type that is only extended is a possible type as well, and the interface is none. -/
theorem relations_of_texts :
    let index := (Database.build [pets, morePets] {}).index
    (index.typeKind? "Pet" = some .interface ∧ (index.possibleTypes "Pet").Nodup ∧
      (("Cat" : Text) ∈ index.implementationsOf "Pet" ↔
        index.implementsInterface "Cat" "Pet" = true) ∧
      (("Cat" : Text) ∈ index.possibleTypes "Pet" ↔
        index.implementsInterface "Cat" "Pet" = true ∧ index.isObjectType "Cat" = true) ∧
      (("Tame" : Text) ∈ index.possibleTypes "Pet" ↔
        index.implementsInterface "Tame" "Pet" = true ∧ index.isObjectType "Tame" = true) ∧
      index.possibleTypes "Pet" = ["Dog", "Cat"]) ∧
    index.typeKind? "Any" = some .union ∧ (index.possibleTypes "Any").Nodup ∧
      (("Cat" : Text) ∈ index.possibleTypes "Any" ↔ index.isUnionMember "Cat" "Any" = true) ∧
      index.possibleTypes "Any" = ["Dog", "Cat"] := by
  intro index
  obtain ⟨⟨kind, pet⟩, kind', listed⟩ :
      (index.typeKind? "Pet" = some .interface ∧ index.possibleTypes "Pet" = ["Dog", "Cat"]) ∧
        index.typeKind? "Any" = some .union ∧ index.possibleTypes "Any" = ["Dog", "Cat"] := by
    decide +kernel
  have cat := Database.relations_agree [pets, morePets] {} "Cat" "Pet"
  have tame := Database.relations_agree [pets, morePets] {} "Tame" "Pet"
  have any := Database.relations_agree [pets, morePets] {} "Cat" "Any"
  exact ⟨⟨kind, (cat.2.1 kind).1, cat.1, (cat.2.1 kind).2, (tame.2.1 kind).2, pet⟩,
    kind', (any.2.2 kind').1, (any.2.2 kind').2, listed⟩

end GraphQL
