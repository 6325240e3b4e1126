import Mathlib.Data.List.Chain
import GraphQL.Proofs.Recovery.Outcome
import GraphQL.Proofs.Recovery.Reading

/-! # What begins a reading and what stands behind it

A construct that has begun is read, whatever follows: its options and lists cannot fail, and the
lack of any other part is recorded. And a part that is lacking could not be read where its construct
ends. So a construct without its last part tells what does not stand behind it:

* `Parser.Succeeds` and `Chain.Begun`: what is here is read, whatever follows,
* `Parser.Opens`: the parser succeeds where a token passes a test,
* `Parser.Leaves` relates what was read to the place behind it,
* `itemsFrom_neighbours`: with nothing passed over, each item of a list stands right behind the one
  before it,
* `itemsFrom_collects`: no item stands where a list passes over tokens. -/

namespace GraphQL.Recovery

set_option autoImplicit false

variable {τ α β μ : Type}

/-- The end of the input is a place to recover to. -/
def Recognizer.SeesEnd (recovery : Recognizer τ) : Prop :=
  ∀ c : Cursor τ, c.tokens.size ≤ c.position → recovery c = true

theorem Recognizer.SeesEnd.or {recovery : Recognizer τ} (h : recovery.SeesEnd)
    (more : Recognizer τ) : (recovery.or more).SeesEnd := by
  intro c outside
  show (recovery c || more c) = true
  rw [h c outside, Bool.true_or]

theorem endOfInput_seesEnd : (Recognizer.endOfInput : Recognizer τ).SeesEnd :=
  fun _ outside => decide_eq_true outside

/-! ## What cannot fail -/

/-- The parser succeeds here, whatever it may recover to besides the end of the input. -/
def Parser.Succeeds (p : Parser τ α) (c : Cursor τ) : Prop :=
  ∀ recovery, recovery.SeesEnd → ∃ r, p.parse c recovery = .ok r

/-- The parser fails nowhere. -/
def Parser.Total (p : Parser τ α) : Prop := ∀ c, p.Succeeds c

/-- The steps are tried here and succeed. -/
structure Chain.Begun (chain : Chain τ α) (c : Cursor τ) : Prop where
  head : chain.head c = true
  run : ∀ recovery, recovery.SeesEnd → ∃ r, chain.run c recovery = .ok r

namespace Parser

variable {p : Parser τ α} {c : Cursor τ}

theorem token_succeeds {what : Text} {accept : τ → Option α} {t : τ} {a : α}
    (peek : c.peek = some t) (h : accept t = some a) : (token what accept).Succeeds c :=
  fun _ _ => ⟨⟨a, c.position + 1, []⟩, by simp only [token, peek, h]⟩

theorem Succeeds.map (h : p.Succeeds c) (f : α → β) : (p.map f).Succeeds c := by
  intro recovery ends
  obtain ⟨r, hr⟩ := h recovery ends
  exact ⟨_, by simp only [Parser.map, hr]; rfl⟩

/-- The alternatives in front of one that succeeds may succeed too. -/
theorem alt_succeeds {ps : List (Parser τ α)} (hp : p ∈ ps) (h : p.Succeeds c) :
    (alt ps).Succeeds c := by
  intro recovery ends
  show ∃ r, firstOf c recovery ps = .ok r
  induction ps with
  | nil => cases hp
  | cons q ps ih =>
    rw [firstOf]
    cases hq : q.parse c recovery with
    | ok r => exact ⟨r, rfl⟩
    | error e =>
      rcases List.mem_cons.1 hp with rfl | hp
      · obtain ⟨r, hr⟩ := h recovery ends
        rw [hr] at hq
        cases hq
      · exact ih hp

/-- An option is found or the recovery point is, at the latest at the end of the input. -/
theorem opt_total (p : Parser τ α) : p.opt.Total := by
  intro c recovery ends
  simp only [Parser.opt]
  cases hs : p.search recovery recovery c with
  | found r passed => exact ⟨_, rfl⟩
  | recovered stop passed => exact ⟨_, rfl⟩
  | exhausted => exact absurd hs (not_exhausted ends)

theorem many0_total (p : Parser τ α) : p.many0.Total := fun _ _ _ => ⟨_, rfl⟩

end Parser

namespace Chain

variable {chain : Chain τ α} {c : Cursor τ}

theorem begun_of {p : Parser τ α} (recognized : p.recognize c = true) (h : p.Succeeds c) :
    (of p).Begun c := ⟨recognized, h⟩

theorem begun_of_token {what : Text} {accept : τ → Option α} {t : τ} {a : α}
    (peek : c.peek = some t) (h : accept t = some a) : (of (.token what accept)).Begun c :=
  begun_of (by simp only [Parser.token, peek, Option.bind_some, h, Option.isSome_some])
    (Parser.token_succeeds peek h)

/-- A part that never fails is found wherever the steps before it end. -/
theorem Begun.and {p : Parser τ β} (h : chain.Begun c) (total : p.Total) :
    (chain.and p).Begun c where
  head := h.head
  run recovery ends := by
    obtain ⟨left, hl⟩ := h.run (recovery.or p.recognize) (ends.or p.recognize)
    obtain ⟨s, hs⟩ := total (c.moveTo left.position) recovery ends
    have found : p.search recovery recovery (c.moveTo left.position) = .found s [] :=
      Parser.search_of_ok hs
    exact ⟨_, by simp only [Chain.and, required, hl, found]; rfl⟩

/-- A recoverable part is found or the recovery point is, at the latest at the end of the input. -/
theorem Begun.andRecover [HasSpan τ] {p : Parser τ β} (h : chain.Begun c) (missing : α → μ) :
    (chain.andRecover p missing).Begun c where
  head := h.head
  run recovery ends := by
    obtain ⟨left, hl⟩ := h.run (recovery.or p.recognize) (ends.or p.recognize)
    simp only [Chain.andRecover, hl]
    cases hs : p.search recovery recovery (c.moveTo left.position) with
    | found s passed => exact ⟨_, rfl⟩
    | recovered stop passed => exact ⟨_, rfl⟩
    | exhausted => exact absurd hs (Parser.not_exhausted ends)

/-- Behind an option that is lacking here the part that is here is found. -/
theorem begun_andRecognize {p : Parser τ α} {next : Parser τ β}
    (lacking : ∀ recovery, ∃ e, p.parse c recovery = .error e)
    (recognized : next.recognize c = true) (h : next.Succeeds c) :
    ((of p.opt).andRecognize next).Begun c where
  head := Parser.or_right recognized
  run recovery ends := by
    obtain ⟨e, he⟩ := lacking (recovery.or next.recognize)
    have stops : (recovery.or next.recognize) c = true := Parser.or_right recognized
    have none : (of p.opt).run c (recovery.or next.recognize) = .ok ⟨none, c.position, []⟩ := by
      simp only [of, Parser.opt, Parser.search_of_error he stops]
    obtain ⟨s, hs⟩ := h recovery ends
    have found : next.search recovery recovery (c.moveTo c.position) = .found s [] :=
      Parser.search_of_ok hs
    exact ⟨_, by simp only [andRecognize, required, none, found]; rfl⟩

theorem Begun.onValue (h : chain.Begun c) (f : α → β) : (chain.onValue f).Begun c where
  head := h.head
  run recovery ends := by
    obtain ⟨r, hr⟩ := h.run recovery ends
    exact ⟨_, by simp only [Chain.onValue, hr]; rfl⟩

theorem Begun.toParser (h : chain.Begun c) : chain.toParser.Succeeds c := by
  intro recovery ends
  simp only [Chain.toParser, h.head, if_true]
  exact h.run recovery ends

theorem Begun.map (h : chain.Begun c) (f : α → β) : (chain.map f).Succeeds c :=
  (h.onValue f).toParser

end Chain

/-! ## What a token opens -/

/-- The parser succeeds where the next token passes the test. -/
def Parser.Opens (test : τ → Bool) (p : Parser τ α) : Prop :=
  ∀ c recovery, recovery.SeesEnd → c.peek.any test = true → ∃ r, p.parse c recovery = .ok r

/-- The steps are tried and succeed where the next token passes the test. -/
structure Chain.Opens (test : τ → Bool) (chain : Chain τ α) : Prop where
  head : ∀ c : Cursor τ, c.peek.any test = true → chain.head c = true
  run : ∀ c recovery, recovery.SeesEnd → c.peek.any test = true → ∃ r, chain.run c recovery = .ok r

variable {test : τ → Bool}

theorem Parser.Opens.succeeds {p : Parser τ α} (h : p.Opens test) {c : Cursor τ}
    (here : c.peek.any test = true) : p.Succeeds c := fun recovery ends => h c recovery ends here

namespace Chain

variable {chain : Chain τ α}

theorem Opens.begun (h : chain.Opens test) {c : Cursor τ} (here : c.peek.any test = true) :
    chain.Begun c := ⟨h.head c here, fun recovery ends => h.run c recovery ends here⟩

theorem opens_of_begun (h : ∀ c : Cursor τ, c.peek.any test = true → chain.Begun c) :
    chain.Opens test :=
  ⟨fun c here => (h c here).head, fun c recovery ends here => (h c here).run recovery ends⟩

theorem of_token_opens (what : Text) :
    (of (.token what fun t => if test t then some t else none)).Opens test :=
  opens_of_begun fun c here => by
    obtain ⟨t, peek, passes⟩ := (Option.any_eq_true _ _).1 here
    exact begun_of_token peek (if_pos passes)

theorem Opens.and {p : Parser τ β} (h : chain.Opens test) (total : p.Total) :
    (chain.and p).Opens test := opens_of_begun fun _ here => (h.begun here).and total

theorem Opens.andRecover [HasSpan τ] {p : Parser τ β} (h : chain.Opens test) (missing : α → μ) :
    (chain.andRecover p missing).Opens test :=
  opens_of_begun fun _ here => (h.begun here).andRecover missing

theorem Opens.map (h : chain.Opens test) (f : α → β) : (chain.map f).Opens test :=
  fun _ recovery ends here => (h.begun here).map f recovery ends

end Chain

/-! ## Lacking parts -/

/-- What is read, and the place behind it. -/
def Parser.Leaves (Q : α → Cursor τ → Prop) (p : Parser τ α) : Prop :=
  ∀ c recovery r, recovery.SeesEnd → p.parse c recovery = .ok r → Q r.value (c.moveTo r.position)

def Chain.Leaves (Q : α → Cursor τ → Prop) (chain : Chain τ α) : Prop :=
  ∀ c recovery r, recovery.SeesEnd → chain.run c recovery = .ok r → Q r.value (c.moveTo r.position)

variable {P : α → Cursor τ → Prop} {Q : β → Cursor τ → Prop}

namespace Parser

variable {p : Parser τ α}

theorem leaves_of_forall (h : ∀ a c, P a c) (p : Parser τ α) : p.Leaves P :=
  fun _ _ r _ _ => h r.value _

theorem Leaves.map (hp : p.Leaves P) {f : α → β} (h : ∀ a c, P a c → Q (f a) c) :
    (p.map f).Leaves Q := by
  intro c recovery r ends hr
  obtain ⟨s, hs, rfl⟩ := map_ok hr
  exact h _ _ (hp c recovery s ends hs)

theorem alt_leaves {ps : List (Parser τ α)} (h : ∀ p ∈ ps, p.Leaves P) : (alt ps).Leaves P := by
  intro c recovery r ends hr
  obtain ⟨p, hp, hr⟩ := alt_ok hr
  exact h p hp c recovery r ends hr

/-- A search that ends at the recovery point has tried the item where it began. -/
theorem error_of_recovered {itemRecovery recovery : Recognizer τ} {c : Cursor τ} {stop : Nat}
    {passed : List Nat} (h : p.search itemRecovery recovery c = .recovered stop passed) :
    ∃ e, p.parse c itemRecovery = .error e := by
  cases hr : p.parse c itemRecovery with
  | ok r =>
    rw [search, hr] at h
    cases h
  | error e => exact ⟨e, rfl⟩

/-- An option that is lacking leaves no token to open its item. -/
theorem Opens.opt_leaves (opens : p.Opens test) :
    p.opt.Leaves fun a c => a = none → c.peek.any test = false := by
  intro c recovery r ends hr lacking
  obtain ⟨s, passed, -, rfl⟩ | ⟨⟨stop, passed, hs⟩, rfl⟩ := opt_ok hr
  · cases lacking
  · refine Bool.eq_false_iff.2 fun here => ?_
    obtain ⟨s, hp⟩ := opens c recovery ends here
    obtain ⟨e, he⟩ := error_of_recovered hs
    rw [hp] at he
    cases he

end Parser

namespace Chain

variable {chain : Chain τ α}

theorem leaves_of_forall (h : ∀ a c, P a c) (chain : Chain τ α) : chain.Leaves P :=
  fun _ _ r _ _ => h r.value _

theorem and_leaves {p : Parser τ β} (hp : p.Leaves Q) :
    (chain.and p).Leaves fun x c => Q x.2 c := by
  intro c recovery r ends hr
  obtain ⟨left, s, passed, -, hs, rfl⟩ := required_ok hr
  obtain ⟨stop, -, parsed⟩ := Parser.passes_of_found hs
  have behind := hp _ recovery s ends parsed
  exact behind

theorem Leaves.onValue (hc : chain.Leaves P) {f : α → β} (h : ∀ a c, P a c → Q (f a) c) :
    (chain.onValue f).Leaves Q := by
  intro c recovery r ends hr
  obtain ⟨s, hs, rfl⟩ := onValue_ok hr
  exact h _ _ (hc c recovery s ends hs)

theorem Leaves.map (hc : chain.Leaves P) {f : α → β} (h : ∀ a c, P a c → Q (f a) c) :
    (chain.map f).Leaves Q :=
  fun c recovery r ends hr => hc.onValue h c recovery r ends (toParser_ok hr)

end Chain

/-! ## Neighbours -/

/-- With nothing passed over, each item begins where the one before it ends. -/
theorem Parser.itemsFrom_neighbours (begins ends : α → Cursor τ → Prop) {item : Parser τ α}
    {itemRecovery recovery : Recognizer τ}
    (each : ∀ c r, item.parse c itemRecovery = .ok r → r.skipped = [] →
      begins r.value c ∧ ends r.value (c.moveTo r.position)) (c : Cursor τ)
    (clean : (itemsFrom item itemRecovery recovery c).skipped = []) :
    (∀ a ∈ (itemsFrom item itemRecovery recovery c).value.head?, begins a c) ∧
      (itemsFrom item itemRecovery recovery c).value.IsChain
        fun a b => ∃ d, ends a d ∧ begins b d := by
  -- a search that passes over nothing finds the item where it begins
  have here {c : Cursor τ} {r : Reading α} {passed : List Nat}
      (found : item.search itemRecovery recovery c = .found r passed)
      (unskipped : r.skipped ++ passed = []) :
      begins r.value c ∧ ends r.value (c.moveTo r.position) := by
    obtain ⟨kept, rfl⟩ := List.append_eq_nil_iff.1 unskipped
    obtain ⟨stop, passes, parsed⟩ := passes_of_found found
    have none : stop - c.position = 0 := by
      simpa using congrArg List.length passes.passed_eq.symm
    have same : stop = c.position := by
      have := passes.le
      omega
    rw [same] at parsed
    exact each c r parsed kept
  induction c using itemsFrom.induct item itemRecovery recovery with
  | case1 c r passed hs less ih =>
    rw [itemsFrom, hs] at clean ⊢
    simp only [less, if_true] at clean ⊢
    obtain ⟨unskipped, rest⟩ := List.append_eq_nil_iff.1 clean
    obtain ⟨first, last⟩ := here hs unskipped
    obtain ⟨next, chain⟩ := ih rest
    refine ⟨by rintro a ⟨⟩; exact first, ?_⟩
    rw [List.isChain_cons]
    exact ⟨fun b hb => ⟨_, last, next b hb⟩, chain⟩
  | case2 c r passed hs less =>
    rw [itemsFrom, hs] at clean ⊢
    simp only [less, if_false] at clean ⊢
    exact ⟨by rintro a ⟨⟩; exact (here hs clean).1, List.isChain_singleton _⟩
  | case3 c stop passed hs =>
    rw [itemsFrom, hs]
    exact ⟨by rintro a ⟨⟩, List.isChain_nil⟩
  | case4 c hs =>
    rw [itemsFrom, hs]
    exact ⟨by rintro a ⟨⟩, List.isChain_nil⟩

/-! ## Lists -/

/-- The values are those of items that are read one behind the other, the first at `start` or
further on. What is between them and behind the last one `skips` tells. -/
inductive Parser.Collects (item : Parser τ α) (recovery : Recognizer τ) (skips : Nat → Prop)
    (tokens : Array τ) : Nat → List α → Prop where
  | done {start : Nat} (rest : ∀ i, start ≤ i → i < tokens.size → skips i) :
      Collects item recovery skips tokens start []
  | item {start stop : Nat} {r : Reading α} {values : List α}
      (front : ∀ i, start ≤ i → i < stop → skips i) (le : start ≤ stop)
      (parsed : item.parse ⟨tokens, stop⟩ recovery = .ok r) (forward : stop < r.position)
      (later : Collects item recovery skips tokens r.position values) :
      Collects item recovery skips tokens start (r.value :: values)

namespace Parser

variable {item : Parser τ α} {recovery : Recognizer τ}

theorem Collects.mono {skips skips' : Nat → Prop} {tokens : Array τ} {start : Nat}
    {values : List α} (h : item.Collects recovery skips tokens start values)
    (sub : ∀ i, skips i → skips' i) : item.Collects recovery skips' tokens start values := by
  induction h with
  | done rest => exact .done fun i le lt => sub i (rest i le lt)
  | item front le parsed forward _ ih =>
    exact .item (fun i le lt => sub i (front i le lt)) le parsed forward ih

/-- Items that use tokens are collected up to the end of the input, and where tokens are passed over
there is no item. -/
theorem itemsFrom_collects
    (forward : ∀ c r, item.parse c recovery = .ok r →
      c.position < r.position ∧ r.position ≤ c.tokens.size) (c : Cursor τ) :
    item.Collects recovery (fun i => ∃ e, item.parse (c.moveTo i) recovery = .error e) c.tokens
      c.position (itemsFrom item recovery Recognizer.endOfInput c).value := by
  -- what a search passes over up to some position
  have missed {c : Cursor τ} {stop : Nat} {passed : List Nat}
      (passes : item.Passes recovery Recognizer.endOfInput c stop passed) {i : Nat}
      (le : c.position ≤ i) (lt : i < stop) : ∃ e, item.parse (c.moveTo i) recovery = .error e := by
    refine (passes.misses i ?_).1
    rw [passes.passed_eq, List.mem_range'_1]
    omega
  induction c using itemsFrom.induct item recovery Recognizer.endOfInput with
  | case1 c r passed hs less ih =>
    obtain ⟨stop, passes, parsed⟩ := passes_of_found hs
    rw [itemsFrom, hs]
    simp only [less, if_true]
    exact .item (fun i => missed passes) passes.le parsed (forward _ _ parsed).1 ih
  | case2 c r passed hs less =>
    obtain ⟨stop, passes, parsed⟩ := passes_of_found hs
    obtain ⟨used, inside⟩ := forward _ _ parsed
    have le := passes.le
    simp only [Cursor.remaining, Cursor.moveTo] at less used inside
    omega
  | case3 c stop passed hs =>
    obtain ⟨passes, -, ends⟩ := passes_of_recovered hs
    have outside : c.tokens.size ≤ stop := of_decide_eq_true ends
    rw [itemsFrom, hs]
    exact .done fun i le lt => missed passes le (Nat.lt_of_lt_of_le lt outside)
  | case4 c hs => exact absurd hs (not_exhausted endOfInput_seesEnd)

end Parser

end GraphQL.Recovery
