import GraphQL.Document.Walk
import GraphQL.Proofs.Document.Outline
import GraphQL.Proofs.Recovery.Accounting

/-! # The marks of an outline

`Outline.marks` lists the tokens and gaps of an outline in the order in which a walk meets them. The
walk, the tokens and the gaps are all told by it:

* `Outline.marks_events`: the tokens and gaps among the events of a walk,
* `Outline.tokens_eq` and `Outline.gaps_eq`: either sort alone,
* the equations of the shapes that outlines are made of. -/

namespace GraphQL

set_option autoImplicit false

open Recovery (Slot Gap Mark)

variable {α β : Type}

/-- A token or a gap of a document. -/
abbrev Leaf := Mark Token Expectation

def Event.mark? : Event → Option Leaf
  | .token t => some (.leaf t)
  | .missing gap => some (.gap gap)
  | _ => none

def Event.token? : Event → Option Token
  | .token t => some t
  | _ => none

namespace Outline

mutual
/-- The tokens and gaps of an outline. -/
def marks : Outline → List Leaf
  | .token t => [.leaf t]
  | .missing gap => [.gap gap]
  | .present content => marksOf content
  | .node _ _ parts => marksOf parts
/-- The tokens and gaps of several outlines. -/
def marksOf : List Outline → List Leaf
  | [] => []
  | outline :: rest => outline.marks ++ marksOf rest
end

@[simp] theorem marks_token (t : Token) : (Outline.token t).marks = [.leaf t] := by rw [marks]

@[simp] theorem marks_missing (gap : Gap Expectation) : (Outline.missing gap).marks = [.gap gap] := by
  rw [marks]

@[simp] theorem marks_present (content : List Outline) :
    (Outline.present content).marks = marksOf content := by rw [marks]

@[simp] theorem marks_node (role : Role) (n : Node) (parts : List Outline) :
    (Outline.node role n parts).marks = marksOf parts := by rw [marks]

@[simp] theorem marksOf_nil : marksOf [] = [] := by rw [marksOf]

@[simp] theorem marksOf_cons (o : Outline) (rest : List Outline) :
    marksOf (o :: rest) = o.marks ++ marksOf rest := by rw [marksOf]

@[simp] theorem marksOf_append (os rest : List Outline) :
    marksOf (os ++ rest) = marksOf os ++ marksOf rest := by
  induction os with
  | nil => simp
  | cons o os ih => simp [ih]

theorem marksOf_map (outline : α → Outline) (items : List α) :
    marksOf (items.map outline) = items.flatMap fun a => (outline a).marks := by
  induction items with
  | nil => simp
  | cons a items ih => simp [ih]

/-! ## Shapes -/

@[simp] theorem marksOf_optional (outline : α → Outline) (a : Option α) :
    marksOf (optional outline a) = Mark.option (fun a => (outline a).marks) a := by
  cases a <;> simp [optional, Mark.option]

@[simp] theorem marksOf_optionalToken (t : Option Token) :
    marksOf (optionalToken t) = Mark.option Mark.one t := by
  cases t <;> simp [optionalToken, optional, Mark.option, Mark.one]

@[simp] theorem marks_slot (content : α → List Outline) (a : Required α) :
    (slot content a).marks = Mark.slot (fun a => marksOf (content a)) a := by
  cases a <;> simp [slot, Mark.slot]

@[simp] theorem marks_single (outline : α → Outline) (a : Required α) :
    (single outline a).marks = Mark.slot (fun a => (outline a).marks) a := by
  simp [single]

@[simp] theorem marks_tokenSlot (t : Required Token) :
    (tokenSlot t).marks = Mark.slot Mark.one t := by
  cases t <;> simp [tokenSlot, single, slot, Mark.slot, Mark.one]

theorem marksOf_delimited (outline : α → Outline) (items : Delimited α) :
    marksOf (delimited outline items) =
      .leaf items.opening :: (items.items.flatMap (fun a => (outline a).marks) ++
        Mark.slot Mark.one items.closing) := by
  simp [delimited, marksOf_map]

theorem marksOf_members (outline : α → Outline) (list : MemberList α) :
    marksOf (members outline list) =
      .leaf list.intro :: (Mark.option Mark.one list.leading ++
        (Mark.slot (fun a => (outline a).marks) list.first ++
          list.rest.flatMap fun m => .leaf m.1 :: Mark.slot (fun a => (outline a).marks) m.2)) := by
  have h (rest : List (Token × Required α)) :
      marksOf (rest.flatMap fun m => [.token m.1, single outline m.2]) =
        rest.flatMap fun m => .leaf m.1 :: Mark.slot (fun a => (outline a).marks) m.2 := by
    induction rest with
    | nil => simp
    | cons m rest ih => simp [ih]
  simp [members, h]

/-! ## What a walk meets -/

mutual
theorem marks_events : (o : Outline) → o.events.filterMap Event.mark? = o.marks
  | .token t => by simp [events, Event.mark?]
  | .missing gap => by simp [events, Event.mark?]
  | .present content => by simp [events, Event.mark?, List.filterMap_cons, marksOf_events content]
  | .node role n parts => by
    cases role <;>
      simp [events, announcement, Event.mark?, List.filterMap_cons, marksOf_events parts]
theorem marksOf_events : (os : List Outline) → (eventsOf os).filterMap Event.mark? = marksOf os
  | [] => by simp [eventsOf]
  | o :: rest => by simp [eventsOf, marks_events o, marksOf_events rest]
end

theorem tokens_events (o : Outline) :
    o.events.filterMap Event.token? = o.marks.filterMap Mark.leaf? := by
  rw [← marks_events, List.filterMap_filterMap]
  congr 1
  funext e
  cases e <;> rfl

mutual
theorem tokens_eq : (o : Outline) → o.tokens = o.marks.filterMap Mark.leaf?
  | .token t => by simp [tokens, Mark.leaf?]
  | .missing gap => by simp [tokens, Mark.leaf?]
  | .present content => by simp [tokens, tokensOf_eq content]
  | .node role n parts => by simp [tokens, tokensOf_eq parts]
theorem tokensOf_eq : (os : List Outline) → tokensOf os = (marksOf os).filterMap Mark.leaf?
  | [] => by simp [tokensOf]
  | o :: rest => by simp [tokensOf, tokens_eq o, tokensOf_eq rest]
end

mutual
theorem gaps_eq : (o : Outline) → o.gaps = o.marks.filterMap Mark.gap?
  | .token t => by simp [gaps, Mark.gap?]
  | .missing gap => by simp [gaps, Mark.gap?]
  | .present content => by simp [gaps, gapsOf_eq content]
  | .node role n parts => by simp [gaps, gapsOf_eq parts]
theorem gapsOf_eq : (os : List Outline) → gapsOf os = (marksOf os).filterMap Mark.gap?
  | [] => by simp [gapsOf]
  | o :: rest => by simp [gapsOf, gaps_eq o, gapsOf_eq rest]
end

end Outline

open Outline

/-! ## Constructs that nest

The role of a node makes no difference to its marks. -/

def NullableType.marks (type : NullableType) : List Leaf := (type.outline .plain).marks

def TypeRef.marks (type : TypeRef) : List Leaf := (type.outline .plain).marks

def Value.marks (value : Value) : List Leaf := (value.outline .plain).marks

@[simp] theorem NamedType.marks_outline (role : Role) (type : NamedType) :
    (type.outline role).marks = [.leaf type.name] := by simp [NamedType.outline]

@[simp] theorem NullableType.marks_outline (role : Role) (type : NullableType) :
    (type.outline role).marks = type.marks := by
  cases type with
  | named type => simp [NullableType.marks, NullableType.outline]
  | list opening item closing => simp [NullableType.marks, NullableType.outline_list]

@[simp] theorem TypeRef.marks_outline (role : Role) (type : TypeRef) :
    (type.outline role).marks = type.marks := by
  cases type <;> simp [TypeRef.marks, TypeRef.outline]

@[simp] theorem Value.marks_outline (role : Role) (value : Value) :
    (value.outline role).marks = value.marks := by
  cases value <;> simp [Value.marks, Value.outline]

theorem NullableType.marks_named (type : NamedType) :
    (NullableType.named type).marks = [.leaf type.name] := by
  simp [NullableType.marks, NullableType.outline]

theorem NullableType.marks_list (opening : Token) (item : Required TypeRef) (closing : Required Token) :
    (NullableType.list opening item closing).marks =
      .leaf opening :: (Mark.slot TypeRef.marks item ++ Mark.slot Mark.one closing) := by
  rw [NullableType.marks, NullableType.outline_list]
  simp

theorem TypeRef.marks_nullable (type : NullableType) : (TypeRef.nullable type).marks = type.marks := by
  simp [TypeRef.marks, TypeRef.outline]

theorem TypeRef.marks_nonNull (type : NullableType) (bang : Token) :
    (TypeRef.nonNull type bang).marks = type.marks ++ [.leaf bang] := by
  simp [TypeRef.marks, TypeRef.outline]

theorem Value.marks_var (v : Variable) :
    (Value.var v).marks = .leaf v.dollar :: Mark.slot Mark.one v.name := by
  simp [Value.marks, Value.outline]

theorem Value.marks_int (t : Token) : (Value.int t).marks = [.leaf t] := by
  simp [Value.marks, Value.outline]

theorem Value.marks_float (t : Token) : (Value.float t).marks = [.leaf t] := by
  simp [Value.marks, Value.outline]

theorem Value.marks_string (t : Token) : (Value.string t).marks = [.leaf t] := by
  simp [Value.marks, Value.outline]

theorem Value.marks_boolean (t : Token) (value : Bool) : (Value.boolean t value).marks = [.leaf t] := by
  simp [Value.marks, Value.outline]

theorem Value.marks_null (t : Token) : (Value.null t).marks = [.leaf t] := by
  simp [Value.marks, Value.outline]

theorem Value.marks_enum (t : Token) : (Value.enum t).marks = [.leaf t] := by
  simp [Value.marks, Value.outline]

theorem Value.marks_list (items : Delimited Value) :
    (Value.list items).marks = marksOf (delimited (Value.outline .value) items) := by
  rw [Value.marks, Value.outline_list, marks_node]

theorem Value.marks_object (fields : Delimited ObjectField) :
    (Value.object fields).marks = marksOf (delimited ObjectField.outline fields) := by
  rw [Value.marks, Value.outline_object, marks_node]

end GraphQL
