import GraphQL.Recovery.Chain

/-! # Grammars

A `Grammar` is a recovering parser as data: the combinators, and rules that grammars refer to by
name. A rule may draw on a nesting budget that several rules share; each call of it takes one level
for the time of the call, and with no level left the rule is recognized but fails.

* `Grammar.parser` interprets a grammar, given the parsers of its rules,
* `Rules.call` is the parser of a rule, for a bound on the depth of calls,
* `Rules.parser` chooses the bound from the input. -/

namespace GraphQL.Recovery

set_option autoImplicit false

mutual
/-- What a grammar reads. -/
inductive Capture (τ : Type) where
  | token (t : τ)
  /-- An item that may be lacking and is. -/
  | nothing
  | list (items : List (Capture τ))
  | labelled (label : String) (item : Capture τ)
  | present (item : Capture τ)
  | missing (span : Span) (expected : Expected τ)
  | suffixed (base : Capture τ) (suffix : Option (Capture τ))
/-- What a gap lacks. -/
inductive Expected (τ : Type) where
  | named (name : String)
  | closing (opening : Capture τ)
  /-- A part by its name, after so many others. -/
  | after (count : Nat) (name : String)
end

mutual
/-- A grammar over tokens of type `τ`. -/
inductive Grammar (τ : Type) where
  /-- One accepted token, called `what` in errors. -/
  | token (what : Text) (accept : τ → Bool)
  | alt (alternatives : List (Grammar τ))
  | opt (item : Grammar τ)
  | many0 (item : Grammar τ)
  | many1 (item : Grammar τ)
  /-- An item whose reading is made into another. -/
  | map (f : Capture τ → Capture τ) (item : Grammar τ)
  | recover (name : String) (item : Grammar τ)
  | delimited (opening body closing : Grammar τ)
  | suffixed (base suffix : Grammar τ)
  | chain (first : Grammar τ) (steps : List (Step τ))
  | rule (name : String)
inductive Step (τ : Type) where
  | and (item : Grammar τ)
  | andRecognize (item : Grammar τ)
  | andRecover (item : Grammar τ) (name : String)
end

/-- An item with a label on what it reads. -/
def Grammar.labelled {τ : Type} (label : String) (item : Grammar τ) : Grammar τ :=
  .map (.labelled label) item

/-- A rule: its grammar, and the nesting budget it draws on. -/
structure Rule (τ : Type) where
  body : Grammar τ
  budget : Option String

/-- Named rules, and the limits of the named budgets. -/
structure Rules (τ : Type) where
  rules : List (String × Rule τ)
  budgets : List (String × Nat)

variable {τ α : Type}

namespace Capture

def ofSlot : Slot (Expected τ) (Capture τ) → Capture τ
  | .present item => .present item
  | .missing gap => .missing gap.span gap.expected

def ofOption : Option (Capture τ) → Capture τ
  | none => .nothing
  | some item => item

end Capture

/-! ## Interpretation -/

/-- The items of a chain with one more at the end. -/
def Chain.snoc (chain : Chain τ (List α × α)) : Chain τ (List α) :=
  chain.onValue fun (items, item) => items ++ [item]

variable [HasSpan τ]

mutual
/-- The parser of a grammar whose rules are parsed by `call`. -/
def Grammar.parser (call : String → Parser τ (Capture τ)) : Grammar τ → Parser τ (Capture τ)
  | .token what accept => .token what fun t => if accept t then some (.token t) else none
  | .alt alternatives => .alt (Grammar.parsers call alternatives)
  | .opt item => (item.parser call).opt.map Capture.ofOption
  | .many0 item => (item.parser call).many0.map .list
  | .many1 item => (item.parser call).many1.map .list
  | .map f item => (item.parser call).map f
  | .recover name item => ((item.parser call).recover (Expected.named name)).map Capture.ofSlot
  | .delimited opening body closing =>
    (Chain.delimited (opening.parser call) (body.parser call) (closing.parser call)
      Expected.closing).map fun ((opening, body), closing) => .list [opening, body, .ofSlot closing]
  | .suffixed base suffix =>
    ((base.parser call).suffixed (suffix.parser call)).map fun (base, suffix) =>
      .suffixed base suffix
  | .chain first steps =>
    (Step.chain call steps (Chain.of ((first.parser call).map fun item => [item]))).map .list
  | .rule name => call name
def Grammar.parsers (call : String → Parser τ (Capture τ)) :
    List (Grammar τ) → List (Parser τ (Capture τ))
  | [] => []
  | g :: rest => g.parser call :: Grammar.parsers call rest
def Step.chain (call : String → Parser τ (Capture τ)) :
    List (Step τ) → Chain τ (List (Capture τ)) → Chain τ (List (Capture τ))
  | [], chain => chain
  | .and item :: rest, chain => Step.chain call rest (chain.and (item.parser call)).snoc
  | .andRecognize item :: rest, chain =>
    Step.chain call rest (chain.andRecognize (item.parser call)).snoc
  | .andRecover item name :: rest, chain =>
    let next := chain.andRecover (item.parser call) fun before => Expected.after before.length name
    Step.chain call rest (next.onValue fun (before, slot) => (before, Capture.ofSlot slot)).snoc
end

/-! ## Rules -/

/-- The levels left in each budget. -/
abbrev Levels := String → Nat

def Levels.take (levels : Levels) (budget : String) : Levels :=
  fun name => if name = budget then levels name - 1 else levels name

namespace Rules

variable {τ : Type} [HasSpan τ]

/-- The levels left before any call. -/
def levels (rules : Rules τ) : Levels := fun name => (rules.budgets.lookup name).getD 0

/-- The parser of the rule `name`, for calls at most `depth` deep; deeper ones are not
recognized. -/
def call (rules : Rules τ) : Nat → Levels → String → Parser τ (Capture τ)
  | 0, _, _ => .tooDeep .never
  | depth + 1, levels, name =>
    match rules.rules.lookup name with
    | none => .tooDeep .never
    | some rule =>
      { recognize := fun c => (rule.body.parser (call rules depth levels)).recognize c
        parse := fun c recovery =>
          match rule.budget with
          | none => (rule.body.parser (call rules depth levels)).parse c recovery
          | some budget =>
            if levels budget = 0 then .error .refused
            else (rule.body.parser (call rules depth (levels.take budget))).parse c recovery }

/-- A depth that no call exceeds, unless a rule calls itself at one position without drawing on a
budget: between two calls of one rule a token is consumed or a level is taken. -/
def depth (rules : Rules τ) (tokens : Nat) : Nat :=
  let levels := rules.budgets.foldl (fun total budget => total + budget.2) 0
  (tokens + 1 + levels) * (rules.rules.length + 1) + 1

/-- The parser of a grammar with these rules, for inputs of so many tokens. -/
def parser (rules : Rules τ) (g : Grammar τ) (tokens : Nat) : Parser τ (Capture τ) :=
  g.parser (rules.call (rules.depth tokens) rules.levels)

end Rules

end GraphQL.Recovery
