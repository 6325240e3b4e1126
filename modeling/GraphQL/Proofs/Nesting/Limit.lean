import GraphQL.Proofs.Nesting.TypeSystem
import GraphQL.Proofs.Document.Genuine
import GraphQL.Proofs.Production.Parse
import GraphQL.Proofs.Production.Soundness

/-! # The limit of nesting

`productions_nest_within_limit`: from any start symbol, wherever it begins and whatever it recovers
to, the counted production has an answer and gives back every level it took; with none taken before,
the answer is that of `StartSymbol.parser`. No way down a tree that is read, from whatever tokens,
meets more nodes that nest than there are levels. -/

namespace GraphQL

set_option autoImplicit false

open Outline (Sound nesting nestingOf nesting_node)
open Production (maxNesting)
open Recovery (Cursor Parser Recognizer Gap)

/-! ## Ways down a tree -/

/-- The nodes on a way down an outline, to a leaf or to where one stops. -/
inductive Outline.Path : Outline → List Node → Prop where
  | stop (o : Outline) : Path o []
  | present {content : List Outline} {o : Outline} {nodes : List Node} (inside : o ∈ content)
      (below : Path o nodes) : Path (.present content) nodes
  | leaf (role : Role) (n : Node) (parts : List Outline) : Path (.node role n parts) [n]
  | node {role : Role} {n : Node} {parts : List Outline} {o : Outline} {nodes : List Node}
      (inside : o ∈ parts) (below : Path o nodes) : Path (.node role n parts) (n :: nodes)

/-- No way down meets more than `limit` nodes that nest. -/
def Outline.NestsWithin (limit : Nat) (o : Outline) : Prop :=
  ∀ nodes, o.Path nodes → nodes.countP (·.kind.nests) ≤ limit

namespace Outline

variable {n : Nat} {o : Outline} {os : List Outline} {role : Role}

theorem nesting_le_of_mem (h : o ∈ os) : o.nesting ≤ nestingOf os := by
  induction os with
  | nil => cases h
  | cons first rest ih =>
    have both := nestingOf_cons_le.1 (le_refl (nestingOf (first :: rest)))
    rcases List.mem_cons.1 h with rfl | h
    · exact both.1
    · exact (ih h).trans both.2

theorem Path.count_le {nodes : List Node} (h : o.Path nodes) :
    nodes.countP (·.kind.nests) ≤ o.nesting := by
  induction h with
  | stop o => exact Nat.zero_le _
  | present inside _ ih =>
    rw [nesting]
    exact ih.trans (nesting_le_of_mem inside)
  | leaf role n parts =>
    rw [List.countP_singleton, nesting_node]
    split <;> omega
  | node inside _ ih =>
    rw [List.countP_cons, nesting_node]
    have below := ih.trans (nesting_le_of_mem inside)
    split <;> omega

theorem nestsWithin_of_nesting (h : o.nesting ≤ n) : o.NestsWithin n :=
  fun _ path => path.count_le.trans h

theorem Sound.nesting_le {test : Bool} (h : Sound n [o] test) : o.nesting ≤ n :=
  (nestingOf_cons_le.1 h.nests).1

/-- The role of a node does not bear on how its parts nest. -/
theorem Sound.node_nesting_le {test : Bool} (h : Sound n [o] test) (node : Node)
    (same : o = .node role node node.parts) : node.outline.nesting ≤ n := by
  have nests := h.nesting_le
  rw [same, nesting_node] at nests
  rw [Node.outline_eq, nesting_node]
  exact nests

end Outline

/-! ## What is read nests within the limit -/

theorem Production.enumName_sound {n : Nat} :
    Production.enumName.Yields fun t =>
      Sound n [(Value.enum t).outline .value] (t.isNameExcept ["true", "false", "null"]) :=
  fun c recovery r hr => .node rfl (.token (Production.nameExcept_yields _ c recovery r hr))

/-- Whatever stands at the cursor. -/
theorem StartSymbol.parser_nests (start : StartSymbol) :
    start.parser.Yields fun n => n.outline.nesting ≤ maxNesting := by
  cases start with
  | arguments => exact (Production.arguments_sound _).map fun _ h => h.nesting_le
  | defaultValue => exact Production.defaultValue_sound.map fun _ h => h.nesting_le
  | definition =>
    exact Production.definition_sound.map fun d h =>
      h.node_nesting_le d.node (d.outline_eq .definition)
  | directives => exact (Production.directives_sound _).map fun _ h => h.nesting_le
  | document => exact Production.document_sound.map fun _ h => h.nesting_le
  | enumValue =>
    rw [StartSymbol.parser]
    exact Production.enumName_sound.map fun t h =>
      h.node_nesting_le (.value (.enum t)) (Value.outline_eq _ _)
  | executableDefinition =>
    exact Production.executableDefinition_sound.map fun d h =>
      h.node_nesting_le d.node (d.outline_eq .definition)
  | fragmentDefinition =>
    exact Production.fragmentDefinition_sound.map fun d h =>
      h.node_nesting_le (.fragment d) ((Definition.fragment d).outline_eq .definition)
  | namedType =>
    rw [StartSymbol.parser]
    exact (Production.namedType_sound .type).map fun t h =>
      h.node_nesting_le (.type (.nullable (.named t))) (TypeRef.outline_eq _ (.nullable (.named t)))
  | operationDefinition =>
    exact Production.operationDefinition_sound.map fun d h =>
      h.node_nesting_le (.operation d) ((Definition.operation d).outline_eq .definition)
  | operationType => exact Production.operationType_sound.map fun _ h => h.nesting_le
  | selectionSet => exact (Production.selectionSet_sound _).map fun _ h => h.nesting_le
  | type =>
    exact (Production.type_sound _).map fun t h => h.node_nesting_le (.type t) (t.outline_eq .type)
  | typeCondition => exact Production.typeCondition_sound.map fun _ h => h.nesting_le
  | typeSystemDefinition =>
    exact Production.typeSystemDefinition_sound.map fun d h =>
      h.node_nesting_le d.node (d.outline_eq .definition)
  | value =>
    exact (Production.value_sound _).map fun v h =>
      h.node_nesting_le (.value v) (v.outline_eq .value)
  | var =>
    rw [StartSymbol.parser]
    exact (Production.var_sound .value).map fun v h =>
      h.node_nesting_le (.value (.var v)) (Value.outline_eq _ _)

theorem StartSymbol.parseAll_nests {start : StartSymbol} {tokens : Array Token}
    {read : Node × List (Recovery.Run Token)} (h : start.parser.parseAll tokens = some read) :
    read.1.outline.NestsWithin maxNesting := by
  rw [Parser.parseAll] at h
  split at h
  next => cases h
  next r hr =>
    obtain rfl := Option.some.inj h
    exact Outline.nestsWithin_of_nesting (start.parser_nests _ _ r hr)

theorem parse_nests (source : Int) (text : Text) :
    (parse source text).tree.outline.NestsWithin maxNesting := by
  obtain ⟨r, hr, hall⟩ := document_reads (lex source text).toArray
  simp only [parse, hall]
  exact Outline.nestsWithin_of_nesting (Production.document_sound _ _ r hr).nesting_le

/-- A production that starts with some levels taken gives back all that it takes, whether it reads
something or fails, and does so after finitely many calls: none is deeper than there are levels. The
trees that are read from a token list or a text nest no deeper either. -/
theorem productions_nest_within_limit :
    (∀ (start : StartSymbol) (depth : Nat), maxNesting < depth →
      ∀ (count : Nat) (c : Cursor Token) (recovery : Recognizer Token), ∃ result,
        ((start.counted depth).parse c recovery).run count = some (result, count) ∧
          (count = 0 → result = start.parser.parse c recovery)) ∧
    (∀ (start : StartSymbol) (tokens : Array Token), ∀ read ∈ start.parser.parseAll tokens,
      read.1.outline.NestsWithin maxNesting) ∧
    (∀ (start : StartSymbol) (source : Int) (text : Text), ∀ parsed ∈ parseWith start source text,
      parsed.tree.outline.NestsWithin maxNesting) ∧
    (∀ (source : Int) (text : Text),
      (parse source text).tree.outline.NestsWithin maxNesting) := by
  refine ⟨?_, fun start tokens read h => start.parseAll_nests h, ?_, parse_nests⟩
  · intro start depth deep count c recovery
    obtain ⟨q, follows, same⟩ := start.counted_restores deep count
    exact ⟨q.parse c recovery, follows.parse c recovery, fun none => by rw [same none]⟩
  · intro start source text parsed h
    obtain ⟨read, all, rfl⟩ := Option.map_eq_some_iff.1 h
    exact start.parseAll_nests all

end GraphQL
