import GraphQL.Proofs.Recovery.Heed
import GraphQL.Proofs.Recovery.Partition
import GraphQL.Recovery.Grammar
import GraphQL.Token.Lexer

/-! # What holds of every grammar

Two laws of recovering parsers, for all grammars, rules and nesting budgets:

* `Rules.passes_no_recovery_point`: a token at which the recovery point is recognized is never
  passed over,
* `Rules.shares_out_stretch`: the tokens between the positions before and after a parse are shared
  out among what it read and what it passed over.

Each is shown for a grammar whose rules have it, by induction on the grammar, and then for the
rules, by induction on the depth of calls. -/

namespace GraphQL.Recovery

set_option autoImplicit false

variable {τ : Type}

/-! ## What a grammar reads -/

namespace Capture

mutual
/-- The tokens that were read, in order; what a gap lacks is none of them. -/
def tokens : Capture τ → List τ
  | .token t => [t]
  | .nothing => []
  | .list items => tokensOf items
  | .labelled _ item => item.tokens
  | .present item => item.tokens
  | .missing _ _ => []
  | .suffixed base none => base.tokens
  | .suffixed base (some suffix) => base.tokens ++ suffix.tokens
/-- The tokens of several items. -/
def tokensOf : List (Capture τ) → List τ
  | [] => []
  | item :: rest => item.tokens ++ tokensOf rest
end

@[simp] theorem tokens_nothing : (Capture.nothing : Capture τ).tokens = [] := by rw [tokens]

@[simp] theorem tokensOf_nil : tokensOf ([] : List (Capture τ)) = [] := by rw [tokensOf]

@[simp] theorem tokensOf_cons (item : Capture τ) (rest : List (Capture τ)) :
    tokensOf (item :: rest) = item.tokens ++ tokensOf rest := by rw [tokensOf]

@[simp] theorem tokensOf_append (items rest : List (Capture τ)) :
    tokensOf (items ++ rest) = tokensOf items ++ tokensOf rest := by
  induction items with
  | nil => rfl
  | cons item items ih => rw [List.cons_append, tokensOf_cons, ih, tokensOf_cons, List.append_assoc]

@[simp] theorem tokens_list (items : List (Capture τ)) :
    (Capture.list items).tokens = tokensOf items := by rw [tokens]

@[simp] theorem tokens_labelled (label : String) (item : Capture τ) :
    (Capture.labelled label item).tokens = item.tokens := by rw [tokens]

/-- The tokens read, as marks. -/
def leaves (item : Capture τ) : List (Mark τ (Expected τ)) := item.tokens.map .leaf

def leavesOf (items : List (Capture τ)) : List (Mark τ (Expected τ)) := (tokensOf items).map .leaf

theorem leavesOf_append (items rest : List (Capture τ)) :
    leavesOf (items ++ rest) = leavesOf items ++ leavesOf rest := by
  simp [leavesOf]

theorem leavesOf_singleton (item : Capture τ) : leavesOf [item] = item.leaves := by
  simp [leavesOf, leaves]

theorem leavesOf_eq (items : List (Capture τ)) : leavesOf items = items.flatMap leaves := by
  induction items with
  | nil => rfl
  | cons item items ih =>
    rw [List.flatMap_cons, ← ih, ← leavesOf_singleton, ← leavesOf_append, List.singleton_append]

theorem leaves_list (items : List (Capture τ)) : (Capture.list items).leaves = leavesOf items := by
  rw [leaves, tokens_list, leavesOf]

theorem leaves_ofOption (item : Option (Capture τ)) :
    (ofOption item).leaves = Mark.option leaves item := by
  cases item <;> simp [ofOption, leaves, Mark.option]

theorem leaves_suffixed (base : Capture τ) (suffix : Option (Capture τ)) :
    (Capture.suffixed base suffix).leaves = base.leaves ++ Mark.option leaves suffix := by
  cases suffix <;> simp [leaves, tokens, Mark.option]

theorem filterMap_leaves (item : Capture τ) : item.leaves.filterMap Mark.leaf? = item.tokens := by
  rw [leaves, List.filterMap_map]
  exact List.filterMap_some

theorem leaves_leaves (item : Capture τ) : Mark.leaves item.leaves = item.leaves := by
  rw [Mark.leaves, filterMap_leaves, leaves]

theorem leaves_ofSlot (slot : Slot (Expected τ) (Capture τ)) :
    (ofSlot slot).leaves = Mark.leaves (Mark.slot leaves slot) := by
  cases slot with
  | present item => rw [ofSlot, Mark.slot, leaves_leaves, leaves, leaves, tokens]
  | missing gap => rw [ofSlot, leaves, tokens]; rfl

theorem leavesOf_leavesOf (items : List (Capture τ)) :
    Mark.leaves (leavesOf items) = leavesOf items := by
  rw [← leaves_list, leaves_leaves]

end Capture

open Capture (leaves leavesOf leaves_list leavesOf_append leavesOf_singleton leavesOf_leavesOf)

/-! ## Grammars that keep what they read -/

mutual
/-- Where a grammar makes a reading into another, the other holds the same tokens. -/
def Grammar.Keeps : Grammar τ → Prop
  | .token _ _ => True
  | .alt alternatives => Grammar.AllKeep alternatives
  | .opt item => item.Keeps
  | .many0 item => item.Keeps
  | .many1 item => item.Keeps
  | .map f item => (∀ x, (f x).tokens = x.tokens) ∧ item.Keeps
  | .recover _ item => item.Keeps
  | .delimited opening body closing => opening.Keeps ∧ body.Keeps ∧ closing.Keeps
  | .suffixed base suffix => base.Keeps ∧ suffix.Keeps
  | .chain first steps => first.Keeps ∧ Step.AllKeep steps
  | .rule _ => True
def Grammar.AllKeep : List (Grammar τ) → Prop
  | [] => True
  | g :: rest => g.Keeps ∧ Grammar.AllKeep rest
def Step.AllKeep : List (Step τ) → Prop
  | [] => True
  | .and item :: rest => item.Keeps ∧ Step.AllKeep rest
  | .andRecognize item :: rest => item.Keeps ∧ Step.AllKeep rest
  | .andRecover item _ :: rest => item.Keeps ∧ Step.AllKeep rest
end

def Rules.Keep (rules : Rules τ) : Prop := ∀ named ∈ rules.rules, named.2.body.Keeps

/-! ## Sharing out -/

variable [HasSpan τ]

/-- Every token may be read. -/
def anyToken (_ : τ) : Prop := True

variable {call : String → Parser τ (Capture τ)}

mutual
theorem Grammar.parser_conserves (hcall : ∀ name, (call name).Conserves anyToken leaves) :
    (g : Grammar τ) → g.Keeps → (g.parser call).Conserves anyToken leaves
  | .token what accept, _ => by
    refine Parser.token_conserves fun t a ha => ?_
    split at ha
    next =>
      cases ha
      exact ⟨trivial, rfl⟩
    next => cases ha
  | .alt alternatives, h => Parser.alt_conserves (Grammar.parsers_conserve hcall alternatives h)
  | .opt item, h => (item.parser_conserves hcall h).opt.map Capture.leaves_ofOption
  | .many0 item, h =>
    (item.parser_conserves hcall h).many0.map fun items => by rw [leaves_list, Capture.leavesOf_eq]
  | .many1 item, h =>
    (item.parser_conserves hcall h).many1.map fun items => by rw [leaves_list, Capture.leavesOf_eq]
  | .map f item, h =>
    (item.parser_conserves hcall h.2).map fun x => by rw [leaves, h.1, leaves]
  | .recover name item, h =>
    ((item.parser_conserves hcall h).recover _).leaves.map Capture.leaves_ofSlot
  | .delimited opening body closing, ⟨ho, hb, hc⟩ => by
    have chain := ((Chain.of_conserves (opening.parser_conserves hcall ho)).and
      (body.parser_conserves hcall hb)).andRecover (closing.parser_conserves hcall hc)
      fun left => Expected.closing left.1
    refine chain.leaves.map fun ((opening, body), closing) => ?_
    simp only [Mark.pair, Mark.leaves_append, Capture.leaves_leaves, ← Capture.leaves_ofSlot,
      leaves_list, Capture.leavesOf_eq, List.flatMap_cons, List.flatMap_nil, List.append_nil,
      List.append_assoc]
  | .suffixed base suffix, h =>
    ((base.parser_conserves hcall h.1).suffixed (suffix.parser_conserves hcall h.2)).map
      fun (base, suffix) => Capture.leaves_suffixed base suffix
  | .chain first steps, h =>
    have start := (first.parser_conserves hcall h.1).map leavesOf_singleton
    (Step.chain_conserves hcall steps h.2 (Chain.of_conserves start)).map leaves_list
  | .rule name, _ => hcall name
theorem Grammar.parsers_conserve (hcall : ∀ name, (call name).Conserves anyToken leaves) :
    (gs : List (Grammar τ)) → Grammar.AllKeep gs →
      ∀ p ∈ Grammar.parsers call gs, p.Conserves anyToken leaves
  | [], _ => by simp [Grammar.parsers]
  | g :: rest, h => by
    rw [Grammar.parsers, List.forall_mem_cons]
    exact ⟨g.parser_conserves hcall h.1, Grammar.parsers_conserve hcall rest h.2⟩
theorem Step.chain_conserves (hcall : ∀ name, (call name).Conserves anyToken leaves) :
    (steps : List (Step τ)) → Step.AllKeep steps → {chain : Chain τ (List (Capture τ))} →
      chain.Conserves anyToken leavesOf → (Step.chain call steps chain).Conserves anyToken leavesOf
  | [], _, _, hc => hc
  | .and item :: rest, h, _, hc =>
    Step.chain_conserves hcall rest h.2
      ((hc.and (item.parser_conserves hcall h.1)).onValue fun (before, item) => by
        rw [leavesOf_append, leavesOf_singleton, Mark.pair])
  | .andRecognize item :: rest, h, _, hc =>
    Step.chain_conserves hcall rest h.2
      ((hc.andRecognize (item.parser_conserves hcall h.1)).onValue fun (before, item) => by
        rw [leavesOf_append, leavesOf_singleton, Mark.pair])
  | .andRecover item name :: rest, h, chain, hc =>
    have next := (hc.andRecover (item.parser_conserves hcall h.1)
      fun before => Expected.after before.length name).leaves
    have step : ((chain.andRecover (item.parser call) fun before =>
        Expected.after before.length name).onValue fun (before, slot) =>
          (before, Capture.ofSlot slot)).Conserves anyToken (Mark.pair leavesOf leaves) :=
      next.onValue fun (before, slot) => by
        simp only [Mark.pair, Mark.leaves_append, leavesOf_leavesOf, Capture.leaves_ofSlot]
    Step.chain_conserves hcall rest h.2
      (step.onValue fun (before, item) => by rw [leavesOf_append, leavesOf_singleton, Mark.pair])
end

/-! ## Heeding the recovery point -/

mutual
theorem Grammar.parser_heeds (hcall : ∀ name, (call name).Heeds) :
    (g : Grammar τ) → (g.parser call).Heeds
  | .token what _ => Parser.token_heeds what _
  | .alt alternatives => Parser.alt_heeds (Grammar.parsers_heed hcall alternatives)
  | .opt item => (item.parser_heeds hcall).opt.map _
  | .many0 item => (item.parser_heeds hcall).many0.map _
  | .many1 item => (item.parser_heeds hcall).many1.map _
  | .map f item => (item.parser_heeds hcall).map f
  | .recover _ item => ((item.parser_heeds hcall).recover _).map _
  | .delimited opening body closing =>
    (((Chain.of_heeds (opening.parser_heeds hcall)).and (body.parser_heeds hcall)).andRecover
      (closing.parser_heeds hcall) _).map _
  | .suffixed base suffix => ((base.parser_heeds hcall).suffixed (suffix.parser_heeds hcall)).map _
  | .chain first steps =>
    (Step.chain_heeds hcall steps (Chain.of_heeds ((first.parser_heeds hcall).map _))).map _
  | .rule name => hcall name
theorem Grammar.parsers_heed (hcall : ∀ name, (call name).Heeds) :
    (gs : List (Grammar τ)) → ∀ p ∈ Grammar.parsers call gs, p.Heeds
  | [] => by simp [Grammar.parsers]
  | g :: rest => by
    rw [Grammar.parsers, List.forall_mem_cons]
    exact ⟨g.parser_heeds hcall, Grammar.parsers_heed hcall rest⟩
theorem Step.chain_heeds (hcall : ∀ name, (call name).Heeds) :
    (steps : List (Step τ)) → {chain : Chain τ (List (Capture τ))} → chain.Heeds →
      (Step.chain call steps chain).Heeds
  | [], _, hc => hc
  | .and item :: rest, _, hc =>
    Step.chain_heeds hcall rest ((hc.and (item.parser_heeds hcall)).onValue _)
  | .andRecognize item :: rest, _, hc =>
    Step.chain_heeds hcall rest ((hc.andRecognize (item.parser_heeds hcall)).onValue _)
  | .andRecover item _ :: rest, _, hc =>
    Step.chain_heeds hcall rest (((hc.andRecover (item.parser_heeds hcall) _).onValue _).onValue _)
end

/-! ## Rules -/

/-- What the one parser reads the other reads too. -/
def Parser.Restricts {α : Type} (p q : Parser τ α) : Prop :=
  ∀ c recovery r, p.parse c recovery = .ok r → q.parse c recovery = .ok r

namespace Rules

variable {rules : Rules τ}

/-- Calls have what passes from the parsers of rules to the bodies of rules, and from a parser to
one that reads less. The induction is on the depth of calls; a budget only refuses some. -/
theorem call_of_body {law : Parser τ (Capture τ) → Prop}
    (less : ∀ p q : Parser τ (Capture τ), p.Restricts q → law q → law p)
    (deep : law (.tooDeep .never))
    (body : ∀ named ∈ rules.rules, ∀ call, (∀ name, law (call name)) →
      law (named.2.body.parser call))
    (depth : Nat) (levels : Levels) (name : String) : law (rules.call depth levels name) := by
  induction depth generalizing levels name with
  | zero => exact deep
  | succ depth ih =>
    rw [call]
    cases hrule : rules.rules.lookup name with
    | none => exact deep
    | some rule =>
      have hmem : (name, rule) ∈ rules.rules := by
        obtain ⟨before, after, hrules, -⟩ := List.lookup_eq_some_iff.1 hrule
        rw [hrules]
        exact List.mem_append_right before List.mem_cons_self
      cases hbudget : rule.budget with
      | none =>
        refine less _ _ (fun c recovery r hr => ?_) (body _ hmem _ fun name => ih levels name)
        simpa [hbudget] using hr
      | some budget =>
        refine less _ _ (fun c recovery r hr => ?_)
          (body _ hmem _ fun name => ih (levels.take budget) name)
        by_cases none : levels budget = 0
        · simp [hbudget, none] at hr
        · simpa [hbudget, none] using hr

theorem call_conserves (keep : rules.Keep) (depth : Nat) (levels : Levels) (name : String) :
    (rules.call depth levels name).Conserves anyToken leaves :=
  call_of_body (fun _ _ less hq c recovery r hr => hq c recovery r (less c recovery r hr))
    (Parser.tooDeep_conserves _) (fun named hmem _ hcall =>
      named.2.body.parser_conserves hcall (keep named hmem)) depth levels name

theorem call_heeds (rules : Rules τ) (depth : Nat) (levels : Levels) (name : String) :
    (rules.call depth levels name).Heeds :=
  call_of_body (fun _ _ less hq c recovery r hr => hq c recovery r (less c recovery r hr))
    (Parser.tooDeep_heeds _) (fun named _ _ hcall => named.2.body.parser_heeds hcall)
    depth levels name

/-! ## A grammar of nested lists -/

/-- Lists in parentheses, nested at most twice. -/
def nestedLists : Rules Token where
  rules := [("list", ⟨.labelled "list" (.delimited (.token "(" (·.isPunctuator "("))
    (.many0 (.rule "list")) (.token ")" (·.isPunctuator ")"))), some "depth"⟩)]
  budgets := [("depth", 2)]

def nestedList : Parser Token (Capture Token) := nestedLists.parser (.rule "list") 6

def atSign : Recognizer Token := fun c => c.peek.any (·.isPunctuator "@")

/-- A list that is not closed in front of the sign, with a name that belongs to nothing. -/
def openList : Cursor Token := .start (lex 1 "( x () @ y").toArray

/-- A list of lists, with two names that belong to nothing. -/
def spoiltList : Cursor Token := .start (lex 1 "( x () y )").toArray

/-! ## The laws -/

variable {g : Grammar τ} {depth : Nat} {levels : Levels} {c : Cursor τ}
  {recovery : Recognizer τ} {r : Reading (Capture τ)}

/-- No grammar passes over a token at which the recovery point is recognized. -/
theorem passes_no_recovery_point
    (h : (g.parser (rules.call depth levels)).parse c recovery = .ok r) :
    ∀ i ∈ r.skipped, recovery (c.moveTo i) = false :=
  g.parser_heeds (rules.call_heeds depth levels) c recovery r h

/-- The open list is given up at the sign. -/
theorem nestedList_stops_at_sign :
    (nestedList.parse openList atSign).toOption.map Reading.skipped = some [1] ∧
      ∀ i ∈ [1], atSign (openList.moveTo i) = false := by
  have skipped : (nestedList.parse openList atSign).toOption.map Reading.skipped = some [1] := by
    decide +kernel
  refine ⟨skipped, ?_⟩
  cases h : nestedList.parse openList atSign with
  | error e => rw [h] at skipped; cases skipped
  | ok r =>
    rw [h] at skipped
    have same : r.skipped = [1] := Option.some.inj skipped
    rw [← same]
    exact passes_no_recovery_point h

/-- A parse by a grammar moves on. The positions it passes over are different ones of its stretch,
and what it reads holds exactly the tokens at the others, in order. -/
theorem shares_out_stretch (keep : rules.Keep) (keeps : g.Keeps)
    (h : (g.parser (rules.call depth levels)).parse c recovery = .ok r) :
    c.position ≤ r.position ∧ r.skipped.Nodup ∧
      (∀ i ∈ r.skipped, c.position ≤ i ∧ i < r.position) ∧
      r.value.tokens.map some = ((List.range' c.position (r.position - c.position)).filter
        fun i => !r.skipped.contains i).map (c.tokens[·]?) := by
  obtain ⟨passed, same, accounts⟩ :=
    g.parser_conserves (call_conserves keep depth levels) keeps c recovery r h
  refine ⟨accounts.le, ?_, ?_, ?_⟩
  · exact same.nodup_iff.1 (accounts.passed_increasing.imp Nat.ne_of_lt)
  · exact fun i hi => accounts.passed_mem i (same.mem_iff.2 hi)
  · have others : ∀ i, passed.contains i = r.skipped.contains i := by
      intro i
      rw [Bool.eq_iff_iff, List.contains_iff_mem, List.contains_iff_mem, same.mem_iff]
    rw [← Capture.filterMap_leaves, accounts.leaves_eq]
    simp only [others]

/-- The names in the list are passed over and all else is read. -/
theorem nestedList_shares_out :
    nestedLists.Keep ∧ (Grammar.rule "list" : Grammar Token).Keeps ∧
      ∃ r, nestedList.parse spoiltList .endOfInput = .ok r ∧ r.position = 6 ∧
        r.skipped = [1, 4] ∧ r.skipped.Nodup ∧
        r.value.tokens.map some = [0, 2, 3, 5].map (spoiltList.tokens[·]?) := by
  have keep : nestedLists.Keep := by
    intro named hmem
    obtain rfl := List.mem_singleton.1 hmem
    simp [Grammar.labelled, Grammar.Keeps]
  have keeps : (Grammar.rule "list" : Grammar Token).Keeps := by simp [Grammar.Keeps]
  have shape : (nestedList.parse spoiltList .endOfInput).toOption.map
      (fun r => (r.position, r.skipped)) = some (6, [1, 4]) := by decide +kernel
  refine ⟨keep, keeps, ?_⟩
  cases h : nestedList.parse spoiltList .endOfInput with
  | error e => rw [h] at shape; cases shape
  | ok r =>
    rw [h] at shape
    obtain ⟨hposition, hskipped⟩ := Prod.mk.inj (Option.some.inj shape)
    obtain ⟨-, nodup, -, read⟩ := shares_out_stretch keep keeps h
    rw [hposition, hskipped] at read
    exact ⟨r, rfl, hposition, hskipped, nodup, read⟩

end Rules

end GraphQL.Recovery
