import GraphQL.Layout.Document
import GraphQL.Proofs.Document.WellFormed

/-! # Leading separators

A separator may stand in front of the first interface, union member or directive location. It means
nothing, and layouts leave it out.

* `leadingSeparators` are those of a document, and `unled` is the document without them,
* `Document.unled_interleaved`: the tokens of a document are those of the document without its
  leading separators and the separators, in some order that keeps both,
* `Document.unled_wellFormed`, `Document.layout_unled`: nothing else depends on them. -/

namespace GraphQL

set_option autoImplicit false

open Outline
open Recovery (Slot)

variable {α δ : Type}

/-! ## Interleaved lists -/

/-- The third list holds the elements of the first two, each in its order. -/
inductive Interleaved : List α → List α → List α → Prop where
  | nil : Interleaved [] [] []
  | keep (a : α) {kept dropped all : List α} (h : Interleaved kept dropped all) :
    Interleaved (a :: kept) dropped (a :: all)
  | drop (a : α) {kept dropped all : List α} (h : Interleaved kept dropped all) :
    Interleaved kept (a :: dropped) (a :: all)

namespace Interleaved

variable {kept dropped all kept' dropped' all' : List α}

theorem refl : (l : List α) → Interleaved l [] l
  | [] => .nil
  | a :: l => .keep a (refl l)

theorem append (h : Interleaved kept dropped all) (h' : Interleaved kept' dropped' all') :
    Interleaved (kept ++ kept') (dropped ++ dropped') (all ++ all') := by
  induction h with
  | nil => exact h'
  | keep a _ ih => exact .keep a ih
  | drop a _ ih => exact .drop a ih

theorem before (l : List α) (h : Interleaved kept dropped all) :
    Interleaved (l ++ kept) dropped (l ++ all) := (refl l).append h

theorem behind (l : List α) (h : Interleaved kept dropped all) :
    Interleaved (kept ++ l) dropped (all ++ l) := by
  simpa using h.append (refl l)

theorem flatMap {β : Type} {items : List β} {f g k : β → List α}
    (h : ∀ b ∈ items, Interleaved (f b) (g b) (k b)) :
    Interleaved (items.flatMap f) (items.flatMap g) (items.flatMap k) := by
  induction items with
  | nil => exact .nil
  | cons b items ih =>
    rw [List.forall_mem_cons] at h
    rw [List.flatMap_cons, List.flatMap_cons, List.flatMap_cons]
    exact h.1.append (ih h.2)

theorem dropped_sublist (h : Interleaved kept dropped all) : dropped.Sublist all := by
  induction h with
  | nil => exact .slnil
  | keep a _ ih => exact ih.cons a
  | drop a _ ih => exact ih.cons_cons a

theorem kept_sublist (h : Interleaved kept dropped all) : kept.Sublist all := by
  induction h with
  | nil => exact .slnil
  | keep a _ ih => exact ih.cons_cons a
  | drop a _ ih => exact ih.cons a

/-- Of a list without doubles the kept elements are those that are not dropped. -/
theorem filter_eq [DecidableEq α] (h : Interleaved kept dropped all) (once : all.Nodup) :
    (all.filter fun a => !dropped.contains a) = kept := by
  induction h with
  | nil => rfl
  | @keep a kept dropped all h ih =>
    rw [List.nodup_cons] at once
    have absent : a ∉ dropped := fun ha => once.1 (h.dropped_sublist.subset ha)
    rw [List.filter_cons_of_pos (by simpa using absent), ih once.2]
  | @drop a kept dropped all h ih =>
    rw [List.nodup_cons] at once
    rw [List.filter_cons_of_neg (by simp)]
    refine Eq.trans (List.filter_congr fun b hb => ?_) (ih once.2)
    have other : b ≠ a := fun same => once.1 (same ▸ hb)
    simp [other]

end Interleaved

/-! ## Documents without leading separators -/

def MemberList.unled (members : MemberList α) : MemberList α := { members with leading := none }

def MemberList.leadingSeparators (members : MemberList α) : List Token := members.leading.toList

def FieldedBody.unled (body : FieldedBody) : FieldedBody :=
  { body with interfaces := body.interfaces.map MemberList.unled }

def FieldedBody.leadingSeparators (body : FieldedBody) : List Token :=
  body.interfaces.elim [] MemberList.leadingSeparators

def TypeBody.unled : TypeBody δ → TypeBody δ
  | .object body => .object body.unled
  | .interface body => .interface body.unled
  | .union directives members => .union directives (members.map MemberList.unled)
  | other => other

def TypeBody.leadingSeparators : TypeBody δ → List Token
  | .object body => body.leadingSeparators
  | .interface body => body.leadingSeparators
  | .union _ members => members.elim [] MemberList.leadingSeparators
  | _ => []

def TypeDefinition.unled (d : TypeDefinition) : TypeDefinition := { d with body := d.body.unled }

def TypeExtension.unled (d : TypeExtension) : TypeExtension := { d with body := d.body.unled }

def DirectiveDefinition.unled (d : DirectiveDefinition) : DirectiveDefinition :=
  { d with
    locations :=
      match d.locations with
      | .present locations => .present locations.unled
      | .missing gap => .missing gap }

def DirectiveDefinition.leadingSeparators (d : DirectiveDefinition) : List Token :=
  d.locations.value?.elim [] MemberList.leadingSeparators

def Definition.unled : Definition → Definition
  | .type d => .type d.unled
  | .typeExtension d => .typeExtension d.unled
  | .directive d => .directive d.unled
  | other => other

def Definition.leadingSeparators : Definition → List Token
  | .type d => d.body.leadingSeparators
  | .typeExtension d => d.body.leadingSeparators
  | .directive d => d.leadingSeparators
  | _ => []

/-- The document without its leading separators. -/
def Document.unled (document : Document) : Document := ⟨document.definitions.map Definition.unled⟩

/-- The ampersands in front of the first interface of a list and the bars in front of the first
member of a union or the first location of a directive. -/
def Document.leadingSeparators (document : Document) : List Token :=
  document.definitions.flatMap Definition.leadingSeparators

/-! ## Tokens -/

theorem MemberList.unled_interleaved (outline : α → Outline) (members : MemberList α) :
    Interleaved (tokensOf (Outline.members outline members.unled)) members.leadingSeparators
      (tokensOf (Outline.members outline members)) := by
  obtain ⟨intro, leading, first, rest⟩ := members
  cases leading with
  | none => exact .refl _
  | some t =>
    simp only [unled, leadingSeparators, Outline.members, Outline.optionalToken, Outline.optional,
      List.nil_append, List.cons_append, tokensOf_cons, tokens_token]
    exact .keep intro (.drop t (.refl _))

theorem optional_interleaved (node : MemberList α → Node) (outline : α → Outline)
    (members : Option (MemberList α)) :
    Interleaved
      (tokensOf (optional (fun members => .node .plain (node members) (Outline.members outline members))
        (members.map MemberList.unled)))
      (members.elim [] MemberList.leadingSeparators)
      (tokensOf (optional (fun members => .node .plain (node members) (Outline.members outline members))
        members)) := by
  cases members with
  | none => exact .nil
  | some members =>
    simp only [Option.map_some, tokensOf_optional, Option.elim_some, tokens_node]
    exact members.unled_interleaved outline

theorem FieldedBody.unled_interleaved (body : FieldedBody) :
    Interleaved (tokensOf body.unled.outlines) body.leadingSeparators (tokensOf body.outlines) := by
  simp only [outlines, unled, leadingSeparators, tokensOf_append]
  exact (optional_interleaved .interfaces _ body.interfaces).behind _

theorem TypeBody.unled_interleaved (scalar : δ → List Outline) (body : TypeBody δ) :
    Interleaved (tokensOf (body.unled.outlines scalar)) body.leadingSeparators
      (tokensOf (body.outlines scalar)) := by
  cases body with
  | scalar directives => exact .refl _
  | object body => exact body.unled_interleaved
  | interface body => exact body.unled_interleaved
  | union directives members =>
    simp only [unled, leadingSeparators, outlines, tokensOf_append]
    exact (optional_interleaved .unionMembers _ members).before _
  | enum directives values => exact .refl _
  | input directives fields => exact .refl _

theorem TypeDefinition.unled_interleaved (d : TypeDefinition) (role : Role) :
    Interleaved (d.unled.outline role).tokens d.body.leadingSeparators (d.outline role).tokens := by
  simp only [outline, unled, tokens_node, tokensOf_append, tokensOf_cons]
  exact (((d.body.unled_interleaved _).before _).before _).before _

theorem TypeExtension.unled_interleaved (d : TypeExtension) (role : Role) :
    Interleaved (d.unled.outline role).tokens d.body.leadingSeparators (d.outline role).tokens := by
  simp only [outline, unled, tokens_node, tokensOf_cons]
  exact (((d.body.unled_interleaved _).before _).before _).before _

theorem DirectiveDefinition.unled_interleaved (d : DirectiveDefinition) (role : Role) :
    Interleaved (d.unled.outline role).tokens d.leadingSeparators (d.outline role).tokens := by
  obtain ⟨description, keyword, sign, name, arguments, repeatable, locations⟩ := d
  cases locations with
  | missing gap => exact .refl _
  | present locations =>
    simp only [outline, unled, leadingSeparators, Slot.value?, Option.elim_some, tokens_node,
      tokensOf_append, tokensOf_cons, tokens_present, tokensOf_nil, List.append_nil,
      DirectiveLocation.listOutline]
    exact ((((((locations.unled_interleaved _).before _).before _).before _).before _).before _).before _

theorem Definition.unled_interleaved (d : Definition) (role : Role) :
    Interleaved (d.unled.outline role).tokens d.leadingSeparators (d.outline role).tokens := by
  cases d with
  | operation d => exact .refl _
  | fragment d => exact .refl _
  | schema d => exact .refl _
  | schemaExtension d => exact .refl _
  | type d => exact d.unled_interleaved role
  | typeExtension d => exact d.unled_interleaved role
  | directive d => exact d.unled_interleaved role

theorem Document.unled_interleaved (document : Document) :
    Interleaved document.unled.outline.tokens document.leadingSeparators document.outline.tokens := by
  simp only [outline, unled, leadingSeparators, tokens_node, tokensOf_map, List.flatMap_map]
  exact .flatMap fun d _ => d.unled_interleaved .definition

/-! ## Well-formedness -/

theorem MemberList.unled_wellFormed {intro separator : Token → Bool} {member : α → Bool}
    {members : MemberList α} (h : members.isWellFormed intro separator member = true) :
    members.unled.isWellFormed intro separator member = true := by
  simp only [isWellFormed, Bool.and_eq_true] at h ⊢
  exact ⟨h.1, rfl, h.2.2⟩

theorem optional_unled_wellFormed {wf : MemberList α → Bool} {members : Option (MemberList α)}
    (h : members.all wf = true) (each : ∀ m, wf m = true → wf m.unled = true) :
    (members.map MemberList.unled).all wf = true := by
  cases members with
  | none => rfl
  | some members => exact each members h

theorem FieldedBody.unled_wellFormed {body : FieldedBody} (h : body.isWellFormed = true) :
    body.unled.isWellFormed = true := by
  simp only [isWellFormed, Bool.and_eq_true] at h ⊢
  exact ⟨optional_unled_wellFormed h.1 fun _ => MemberList.unled_wellFormed, h.2⟩

theorem TypeBody.unled_wellFormed {scalar : δ → Bool} {body : TypeBody δ}
    (h : body.isWellFormed scalar = true) : body.unled.isWellFormed scalar = true := by
  cases body with
  | scalar directives => exact h
  | object body => exact FieldedBody.unled_wellFormed h
  | interface body => exact FieldedBody.unled_wellFormed h
  | union directives members =>
    simp only [unled, isWellFormed, Bool.and_eq_true] at h ⊢
    exact ⟨h.1, optional_unled_wellFormed h.2 fun _ => MemberList.unled_wellFormed⟩
  | enum directives values => exact h
  | input directives fields => exact h

@[simp] theorem TypeBody.kind_unled (body : TypeBody δ) : body.unled.kind = body.kind := by
  cases body <;> rfl

@[simp] theorem TypeBody.isOpen_unled (body : TypeBody δ) : body.unled.isOpen = body.isOpen := by
  cases body <;> rfl

theorem Definition.unled_wellFormed {d : Definition} (h : d.isWellFormed = true) :
    d.unled.isWellFormed = true := by
  cases d with
  | type d =>
    simp only [isWellFormed, unled, TypeDefinition.unled, TypeDefinition.isWellFormed,
      TypeBody.kind_unled, Bool.and_eq_true] at h ⊢
    exact ⟨h.1, h.2.1, h.2.2.1, TypeBody.unled_wellFormed h.2.2.2⟩
  | typeExtension d =>
    simp only [isWellFormed, unled, TypeExtension.unled, TypeExtension.isWellFormed,
      TypeBody.kind_unled, Bool.and_eq_true] at h ⊢
    exact ⟨h.1, h.2.1, h.2.2.1, TypeBody.unled_wellFormed h.2.2.2⟩
  | directive d =>
    obtain ⟨description, keyword, sign, name, arguments, repeatable, locations⟩ := d
    simp only [isWellFormed, unled, DirectiveDefinition.unled, DirectiveDefinition.isWellFormed,
      Bool.and_eq_true] at h ⊢
    obtain ⟨hd, hk, hs, hn, ha, hr, hl⟩ := h
    obtain ⟨locations, rfl, hl⟩ := exists_of_filled hl
    have unled : DirectiveLocation.listIsWellFormed locations.unled = true :=
      MemberList.unled_wellFormed hl
    exact ⟨hd, hk, hs, hn, ha, hr, unled⟩
  | _ => exact h

/-- What separates members: ampersands interfaces, bars union members and directive locations. -/
def Token.isSeparator (t : Token) : Bool := t.isPunctuator "&" || t.isPunctuator "|"

theorem MemberList.leading_separates {intro separator : Token → Bool} {member : α → Bool}
    {members : MemberList α} (h : members.isWellFormed intro separator member = true) :
    ∀ t ∈ members.leadingSeparators, separator t = true := by
  simp only [isWellFormed, Bool.and_eq_true] at h
  intro t ht
  have leading : members.leading = some t := Option.mem_toList.1 ht
  simpa [leading] using h.2.1

theorem optional_leading_separates {wf : MemberList α → Bool} {members : Option (MemberList α)}
    (h : members.all wf = true)
    (each : ∀ m, wf m = true → ∀ t ∈ m.leadingSeparators, t.isSeparator = true) :
    ∀ t ∈ members.elim [] MemberList.leadingSeparators, t.isSeparator = true := by
  cases members with
  | none => exact List.forall_mem_nil _
  | some members => exact each members h

theorem interfaces_leading_separates (m : MemberList NamedType)
    (h : interfacesAreWellFormed m = true) : ∀ t ∈ m.leadingSeparators, t.isSeparator = true :=
  fun t ht => Bool.or_eq_true_iff.2 (.inl (m.leading_separates h t ht))

theorem FieldedBody.leading_separates {body : FieldedBody} (h : body.isWellFormed = true) :
    ∀ t ∈ body.leadingSeparators, t.isSeparator = true := by
  rw [isWellFormed, Bool.and_eq_true] at h
  exact optional_leading_separates h.1 interfaces_leading_separates

theorem TypeBody.leading_separates {scalar : δ → Bool} {body : TypeBody δ}
    (h : body.isWellFormed scalar = true) : ∀ t ∈ body.leadingSeparators, t.isSeparator = true := by
  cases body with
  | object body => exact FieldedBody.leading_separates h
  | interface body => exact FieldedBody.leading_separates h
  | union directives members =>
    rw [isWellFormed, Bool.and_eq_true] at h
    exact optional_leading_separates h.2 fun m wf t ht =>
      Bool.or_eq_true_iff.2 (.inr (m.leading_separates wf t ht))
  | _ => exact List.forall_mem_nil _

theorem Definition.leading_separates {d : Definition} (h : d.isWellFormed = true) :
    ∀ t ∈ d.leadingSeparators, t.isSeparator = true := by
  cases d with
  | type d =>
    simp only [isWellFormed, TypeDefinition.isWellFormed, Bool.and_eq_true] at h
    exact TypeBody.leading_separates h.2.2.2
  | typeExtension d =>
    simp only [isWellFormed, TypeExtension.isWellFormed, Bool.and_eq_true] at h
    exact TypeBody.leading_separates h.2.2.2
  | directive d =>
    obtain ⟨description, keyword, sign, name, arguments, repeatable, locations⟩ := d
    simp only [isWellFormed, DirectiveDefinition.isWellFormed, Bool.and_eq_true] at h
    obtain ⟨-, -, -, -, -, -, hl⟩ := h
    obtain ⟨locations, rfl, wf⟩ := exists_of_filled hl
    have bars := MemberList.leading_separates wf
    exact fun t ht => Bool.or_eq_true_iff.2 (.inr (bars t ht))
  | _ => exact List.forall_mem_nil _

theorem Document.leading_separates {document : Document} (h : document.isWellFormed = true) :
    ∀ t ∈ document.leadingSeparators, t.isSeparator = true := by
  simp only [isWellFormed, Bool.and_eq_true, List.all_eq_true] at h
  intro t ht
  obtain ⟨d, hd, ht⟩ := List.mem_flatMap.1 ht
  exact Definition.leading_separates (h.1 d hd) t ht

theorem Definition.isOpen_unled (d : Definition) : d.unled.isOpen = d.isOpen := by
  cases d with
  | type d => exact d.body.isOpen_unled
  | typeExtension d => exact d.body.isOpen_unled
  | _ => rfl

theorem Definition.isShorthand_unled (d : Definition) : d.unled.isShorthand = d.isShorthand := by
  cases d <;> rfl

theorem Definition.areApart_unled (ds : List Definition) :
    areApart (ds.map unled) = areApart ds := by
  induction ds with
  | nil => rfl
  | cons d ds ih =>
    cases ds with
    | nil => rw [List.map_cons, List.map_nil, areApart, areApart, isOpen_unled]; rfl
    | cons d' ds =>
      rw [List.map_cons, areApart, ih, areApart.eq_2 d, isOpen_unled, List.map_cons,
        List.head?_cons, List.head?_cons, Option.any_some, Option.any_some, isShorthand_unled]

/-! ## Nesting -/

theorem Outline.nestingOf_append (os rest : List Outline) :
    nestingOf (os ++ rest) = max (nestingOf os) (nestingOf rest) := by
  induction os with
  | nil => simp
  | cons o os ih => rw [List.cons_append, nestingOf, nestingOf, ih, Nat.max_assoc]

theorem optional_nesting_unled {outline : MemberList α → Outline} {members : Option (MemberList α)}
    (each : ∀ m, (outline m.unled).nesting = (outline m).nesting) :
    nestingOf (optional outline (members.map MemberList.unled)) =
      nestingOf (optional outline members) := by
  cases members with
  | none => rfl
  | some members =>
    simp only [Option.map_some, Outline.optional, nestingOf, each]

theorem MemberList.nestingOf_unled (outline : α → Outline) (members : MemberList α) :
    nestingOf (Outline.members outline members.unled) =
      nestingOf (Outline.members outline members) := by
  obtain ⟨intro, leading, first, rest⟩ := members
  cases leading with
  | none => rfl
  | some t => simp [unled, Outline.members, Outline.optionalToken, Outline.optional, nestingOf]

theorem interfaces_nesting_unled (m : MemberList NamedType) :
    (interfacesOutline m.unled).nesting = (interfacesOutline m).nesting := by
  rw [interfacesOutline, interfacesOutline, nesting_node, nesting_node, m.nestingOf_unled]
  rfl

theorem unionMembers_nesting_unled (m : MemberList NamedType) :
    (unionMembersOutline m.unled).nesting = (unionMembersOutline m).nesting := by
  rw [unionMembersOutline, unionMembersOutline, nesting_node, nesting_node, m.nestingOf_unled]
  rfl

theorem locations_nesting_unled (m : MemberList DirectiveLocation) :
    (DirectiveLocation.listOutline m.unled).nesting = (DirectiveLocation.listOutline m).nesting := by
  rw [DirectiveLocation.listOutline, DirectiveLocation.listOutline, nesting_node, nesting_node,
    m.nestingOf_unled]
  rfl

theorem FieldedBody.nestingOf_unled (body : FieldedBody) :
    nestingOf body.unled.outlines = nestingOf body.outlines := by
  simp only [outlines, unled, Outline.nestingOf_append,
    optional_nesting_unled interfaces_nesting_unled]

theorem TypeBody.nestingOf_unled (scalar : δ → List Outline) (body : TypeBody δ) :
    nestingOf (body.unled.outlines scalar) = nestingOf (body.outlines scalar) := by
  cases body with
  | object body => exact body.nestingOf_unled
  | interface body => exact body.nestingOf_unled
  | union directives members =>
    simp only [outlines, unled, Outline.nestingOf_append,
      optional_nesting_unled unionMembers_nesting_unled]
  | _ => rfl

theorem Definition.nesting_unled (d : Definition) (role : Role) :
    (d.unled.outline role).nesting = (d.outline role).nesting := by
  cases d with
  | type d =>
    simp only [unled, outline, TypeDefinition.outline, TypeDefinition.unled, nesting_node, Node.kind,
      TypeBody.kind_unled, Outline.nestingOf_append, nestingOf, TypeBody.nestingOf_unled]
  | typeExtension d =>
    simp only [unled, outline, TypeExtension.outline, TypeExtension.unled, nesting_node, Node.kind,
      TypeBody.kind_unled, nestingOf, TypeBody.nestingOf_unled]
    rfl
  | directive d =>
    obtain ⟨description, keyword, sign, name, arguments, repeatable, locations⟩ := d
    cases locations with
    | missing gap => rfl
    | present locations =>
      simp only [unled, outline, DirectiveDefinition.outline, DirectiveDefinition.unled, nesting_node,
        Node.kind, Outline.nestingOf_append, nestingOf, single, slot, nesting,
        locations_nesting_unled]
  | _ => rfl

theorem Document.nesting_unled (document : Document) :
    document.unled.outline.nesting = document.outline.nesting := by
  obtain ⟨ds⟩ := document
  rw [outline, outline, nesting_node, nesting_node]
  show nestingOf ((ds.map Definition.unled).map _) = nestingOf (ds.map _)
  induction ds with
  | nil => rfl
  | cons d ds ih =>
    simp only [List.map_cons, nestingOf, Definition.nesting_unled]
    rw [ih]

/-- Without its leading separators a well-formed document stays one. -/
theorem Document.unled_wellFormed {document : Document} (h : document.isWellFormed = true) :
    document.unled.isWellFormed = true := by
  simp only [isWellFormed, Bool.and_eq_true, List.all_eq_true] at h ⊢
  obtain ⟨each, apart, nests⟩ := h
  refine ⟨fun d hd => ?_, ?_, ?_⟩
  · obtain ⟨d', hd', rfl⟩ := List.mem_map.1 hd
    exact Definition.unled_wellFormed (each d' hd')
  · rw [unled, Definition.areApart_unled, apart]
  · rw [nesting_unled, nests]

/-! ## Layout -/

theorem FieldedBody.layouts_unled (indent : Text) (body : FieldedBody) :
    body.unled.layouts indent = body.layouts indent := by
  obtain ⟨interfaces, directives, fields⟩ := body
  cases interfaces <;> rfl

theorem TypeBody.layouts_unled (scalar : δ → Text) (indent : Text) (body : TypeBody δ) :
    body.unled.layouts scalar indent = body.layouts scalar indent := by
  cases body with
  | object body => exact body.layouts_unled indent
  | interface body => exact body.layouts_unled indent
  | union directives members => cases members <;> rfl
  | _ => rfl

theorem Definition.layout_unled (indent : Text) (d : Definition) :
    d.unled.layout indent = d.layout indent := by
  cases d with
  | type d =>
    simp only [unled, layout, TypeDefinition.layout, TypeDefinition.unled, TypeBody.kind_unled,
      TypeBody.layouts_unled]
  | typeExtension d =>
    simp only [unled, layout, TypeExtension.layout, TypeExtension.unled, TypeBody.kind_unled,
      TypeBody.layouts_unled]
  | directive d =>
    obtain ⟨description, keyword, sign, name, arguments, repeatable, locations⟩ := d
    cases locations <;> rfl
  | _ => rfl

theorem Document.layout_unled (document : Document) : document.unled.layout = document.layout := by
  simp [layout, unled, Definition.layout_unled, Function.comp_def]

end GraphQL
