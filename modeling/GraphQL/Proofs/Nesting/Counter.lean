import GraphQL.Recovery.Chain
import Mathlib.Data.List.Forall2

/-! # Parsers that share a counter

Productions that nest may be told how many levels they have left, or they may all look at one
counter of the levels taken. A `Counted` parser does the latter: `Counted.nested` refuses at the
limit, and otherwise takes a level for the time of a call. Everything else hands the counter on.

A counted grammar calls itself, so it is built for calls up to some depth, and has no answer for
deeper ones. `Counted.Follows` compares it, from one value of the counter, with a parser that is
told its levels: there is an answer, it is the answer of that parser, and the counter is what it
was. Each way of building parsers keeps this. `Counted.Restores` compares it with a parser that has
all levels, which is what it reads where none is taken yet. -/

namespace GraphQL.Recovery

set_option autoImplicit false

variable {τ α β γ μ : Type}

/-- Computations on a counter. One that has no answer is `none`. -/
abbrev Counting := StateT Nat Option

structure Counted (τ α : Type) where
  recognize : Recognizer τ
  parse : Cursor τ → Recognizer τ → Counting (Except ParseError (Reading α))

/-- A chain of counted parsers. -/
structure CountedChain (τ α : Type) where
  head : Recognizer τ
  run : Cursor τ → Recognizer τ → Counting (Except ParseError (Reading α))

/-! ## Combinators -/

namespace Counted

/-- A parser in which nothing nests. -/
def ofParser (p : Parser τ α) : Counted τ α where
  recognize := p.recognize
  parse c recovery := pure (p.parse c recovery)

/-- A call that is too deep to be answered. -/
def unanswered (recognize : Recognizer τ) : Counted τ α where
  recognize := recognize
  parse _ _ _ := none

/-- Takes a level for the time of the call; at the limit there is none. -/
def nested (limit : Nat) (p : Counted τ α) : Counted τ α where
  recognize := p.recognize
  parse c recovery := do
    let count ← get
    if limit ≤ count then
      return .error .refused
    else
      set (count + 1)
      let result ← p.parse c recovery
      modify (· - 1)
      return result

def map (f : α → β) (p : Counted τ α) : Counted τ β where
  recognize := p.recognize
  parse c recovery := do
    let result ← p.parse c recovery
    return result.map fun r => ⟨f r.value, r.position, r.skipped⟩

def firstOf (c : Cursor τ) (recovery : Recognizer τ) :
    List (Counted τ α) → Counting (Except ParseError (Reading α))
  | [] => pure (.error .noAlternative)
  | p :: rest => do
    match ← p.parse c recovery with
    | .ok reading => return .ok reading
    | .error _ => firstOf c recovery rest

def alt (alternatives : List (Counted τ α)) : Counted τ α where
  recognize c := alternatives.any (·.recognize c)
  parse c recovery := firstOf c recovery alternatives

def search (item : Counted τ α) (itemRecovery recovery : Recognizer τ) (c : Cursor τ) :
    Counting (Search α) := do
  match ← item.parse c itemRecovery with
  | .ok reading => return .found reading []
  | .error _ =>
    if recovery c then
      return .recovered c.position []
    else if c.position < c.tokens.size then
      let outcome ← search item itemRecovery recovery c.advance
      return outcome.passing c.position
    else
      return .exhausted
termination_by c.remaining
decreasing_by
  simp only [Cursor.remaining, Cursor.advance, Cursor.moveTo]
  omega

def opt (p : Counted τ α) : Counted τ (Option α) where
  recognize := p.recognize
  parse c recovery := do
    match ← p.search recovery recovery c with
    | .found r passed => return .ok ⟨some r.value, r.position, r.skipped ++ passed⟩
    | .recovered _ _ => return .ok ⟨none, c.position, []⟩
    | .exhausted => return .error .incomplete

def recover [HasSpan τ] (missing : μ) (p : Counted τ α) : Counted τ (Slot μ α) where
  recognize := p.recognize
  parse c recovery := do
    match ← p.search recovery recovery c with
    | .found r passed => return .ok ⟨.present r.value, r.position, r.skipped ++ passed⟩
    | .recovered stop passed =>
      return .ok ⟨.missing ((c.moveTo stop).gap missing), stop, passed⟩
    | .exhausted => return .error .incomplete

def itemsFrom (item : Counted τ α) (itemRecovery recovery : Recognizer τ) (c : Cursor τ) :
    Counting (Reading (List α)) := do
  match ← item.search itemRecovery recovery c with
  | .found r passed =>
    if (c.moveTo r.position).remaining < c.remaining then
      let rest ← itemsFrom item itemRecovery recovery (c.moveTo r.position)
      return ⟨r.value :: rest.value, rest.position, r.skipped ++ passed ++ rest.skipped⟩
    else
      return ⟨[r.value], r.position, r.skipped ++ passed⟩
  | .recovered _ _ => return ⟨[], c.position, []⟩
  | .exhausted => return ⟨[], c.position, []⟩
termination_by c.remaining

def many0 (item : Counted τ α) : Counted τ (List α) where
  recognize := item.recognize
  parse c recovery := do
    let found ← itemsFrom item (recovery.or item.recognize) recovery c
    return .ok found

def many1 (item : Counted τ α) : Counted τ (List α) where
  recognize := item.recognize
  parse c recovery := do
    let found ← itemsFrom item (recovery.or item.recognize) recovery c
    return if found.value.isEmpty then .error .noItem else .ok found

def suffixed (base : Counted τ α) (suffix : Counted τ β) : Counted τ (α × Option β) where
  recognize := base.recognize
  parse c recovery := do
    match ← base.parse c (recovery.or suffix.recognize) with
    | .error e => return .error e
    | .ok b =>
      match ← suffix.parse (c.moveTo b.position) recovery with
      | .error _ => return .ok ⟨(b.value, none), b.position, b.skipped⟩
      | .ok s => return .ok ⟨(b.value, some s.value), s.position, b.skipped ++ s.skipped⟩

end Counted

/-! ## Chains -/

namespace CountedChain

def ofChain (chain : Chain τ α) : CountedChain τ α where
  head := chain.head
  run c recovery := pure (chain.run c recovery)

def of (first : Counted τ α) : CountedChain τ α := ⟨first.recognize, first.parse⟩

def and (chain : CountedChain τ α) (next : Counted τ β) : CountedChain τ (α × β) where
  head := chain.head
  run c recovery := do
    match ← chain.run c (recovery.or next.recognize) with
    | .error e => return .error e
    | .ok left =>
      match ← next.search recovery recovery (c.moveTo left.position) with
      | .found r passed =>
        return .ok ⟨(left.value, r.value), r.position, left.skipped ++ (r.skipped ++ passed)⟩
      | .recovered _ _ => return .error .refused
      | .exhausted => return .error .incomplete

def andRecover [HasSpan τ] (chain : CountedChain τ α) (next : Counted τ β) (missing : α → μ) :
    CountedChain τ (α × Slot μ β) where
  head := chain.head
  run c recovery := do
    match ← chain.run c (recovery.or next.recognize) with
    | .error e => return .error e
    | .ok left =>
      let c := c.moveTo left.position
      match ← next.search recovery recovery c with
      | .found r passed =>
        return .ok ⟨(left.value, .present r.value), r.position,
          left.skipped ++ (r.skipped ++ passed)⟩
      | .recovered stop passed =>
        return .ok ⟨(left.value, .missing ((c.moveTo stop).gap (missing left.value))), stop,
          left.skipped ++ passed⟩
      | .exhausted => return .error .incomplete

def toParser (chain : CountedChain τ α) : Counted τ α where
  recognize := chain.head
  parse c recovery := if chain.head c then chain.run c recovery else pure (.error .refused)

def onValue (f : α → β) (chain : CountedChain τ α) : CountedChain τ β where
  head := chain.head
  run c recovery := do
    let result ← chain.run c recovery
    return result.map fun r => ⟨f r.value, r.position, r.skipped⟩

def map (f : α → β) (chain : CountedChain τ α) : Counted τ β := (chain.onValue f).toParser

def delimited [HasSpan τ] (opening : Counted τ α) (body : Counted τ β) (closing : Counted τ γ)
    (unclosed : α → μ) : CountedChain τ ((α × β) × Slot μ γ) :=
  ((of opening).and body).andRecover closing fun left => unclosed left.1

end CountedChain

/-! ## Following a parser -/

variable {count limit : Nat}

/-- A computation that leaves the count as it was hands its answer on. -/
theorem Counting.run_bind {m : Counting α} {a : α} (h : m.run count = some (a, count))
    (f : α → Counting β) : (m >>= f).run count = (f a).run count := by
  rw [StateT.run_bind, h, Option.bind_eq_bind, Option.bind_some]

/-- From this count `p` reads what `q` does, and leaves the count as it was. -/
structure Counted.Follows (count : Nat) (p : Counted τ α) (q : Parser τ α) : Prop where
  recognize : p.recognize = q.recognize
  parse : ∀ c recovery, (p.parse c recovery).run count = some (q.parse c recovery, count)

structure CountedChain.Follows (count : Nat) (chain : CountedChain τ α) (plain : Chain τ α) :
    Prop where
  head : chain.head = plain.head
  run : ∀ c recovery, (chain.run c recovery).run count = some (plain.run c recovery, count)

namespace Counted

theorem ofParser_follows (q : Parser τ α) : (ofParser q).Follows count q where
  recognize := rfl
  parse _ _ := rfl

/-- Without a level left the call is refused, whatever it calls. -/
theorem nested_refuses (h : limit ≤ count) (p : Counted τ α) :
    (p.nested limit).Follows count (.tooDeep p.recognize) where
  recognize := rfl
  parse c recovery := by simp [nested, Parser.tooDeep, h]

namespace Follows

variable {p : Counted τ α} {q : Parser τ α}

/-- The level that a call takes is given back. -/
theorem nested (h : count < limit) (hp : p.Follows (count + 1) q) :
    (p.nested limit).Follows count q where
  recognize := hp.recognize
  parse c recovery := by simp [Counted.nested, Nat.not_le.2 h, hp.parse]

theorem map (hp : p.Follows count q) (f : α → β) : (p.map f).Follows count (q.map f) where
  recognize := hp.recognize
  parse c recovery := by
    rw [Counted.map, Counting.run_bind (hp.parse c recovery)]
    rfl

theorem alt {ps : List (Counted τ α)} {qs : List (Parser τ α)}
    (h : List.Forall₂ (Follows count) ps qs) : (alt ps).Follows count (.alt qs) where
  recognize := by
    funext c
    simp only [Counted.alt, Parser.alt]
    induction h with
    | nil => rfl
    | cons hp _ ih => rw [List.any_cons, List.any_cons, ih, hp.recognize]
  parse c recovery := by
    simp only [Counted.alt, Parser.alt]
    induction h with
    | nil => rfl
    | @cons p q ps qs hp _ ih =>
      rw [firstOf, Parser.firstOf, Counting.run_bind (hp.parse c recovery)]
      cases q.parse c recovery with
      | ok reading => rfl
      | error e => exact ih

theorem search (hp : p.Follows count q) (itemRecovery recovery : Recognizer τ) (c : Cursor τ) :
    (p.search itemRecovery recovery c).run count =
      some (q.search itemRecovery recovery c, count) := by
  fun_induction Parser.search q itemRecovery recovery c with
  | case1 c reading found => rw [Counted.search, Counting.run_bind (hp.parse c _), found]; rfl
  | case2 c e failed waiting =>
    rw [Counted.search, Counting.run_bind (hp.parse c _), failed]
    simp [waiting]
  | case3 c e failed waiting inside ih =>
    rw [Counted.search, Counting.run_bind (hp.parse c _), failed]
    simp [waiting, inside, ih]
  | case4 c e failed waiting outside =>
    rw [Counted.search, Counting.run_bind (hp.parse c _), failed]
    simp [waiting, outside]

theorem opt (hp : p.Follows count q) : p.opt.Follows count q.opt where
  recognize := hp.recognize
  parse c recovery := by
    simp only [Counted.opt, Parser.opt, Counting.run_bind (hp.search recovery recovery c)]
    cases q.search recovery recovery c <;> rfl

theorem recover [HasSpan τ] (hp : p.Follows count q) (missing : μ) :
    (p.recover missing).Follows count (q.recover missing) where
  recognize := hp.recognize
  parse c recovery := by
    simp only [Counted.recover, Parser.recover, Counting.run_bind (hp.search recovery recovery c)]
    cases q.search recovery recovery c <;> rfl

theorem itemsFrom (hp : p.Follows count q) (itemRecovery recovery : Recognizer τ) (c : Cursor τ) :
    (p.itemsFrom itemRecovery recovery c).run count =
      some (q.itemsFrom itemRecovery recovery c, count) := by
  fun_induction Parser.itemsFrom q itemRecovery recovery c with
  | case1 c r passed found progress rest ih =>
    rw [Counted.itemsFrom, Counting.run_bind (hp.search _ _ c), found]
    simp [progress, ih, rest]
  | case2 c r passed found stuck =>
    rw [Counted.itemsFrom, Counting.run_bind (hp.search _ _ c), found]
    simp [stuck]
  | case3 c stop passed found =>
    rw [Counted.itemsFrom, Counting.run_bind (hp.search _ _ c), found]
    rfl
  | case4 c found =>
    rw [Counted.itemsFrom, Counting.run_bind (hp.search _ _ c), found]
    rfl

theorem many0 (hp : p.Follows count q) : p.many0.Follows count q.many0 where
  recognize := hp.recognize
  parse c recovery := by
    rw [Counted.many0, hp.recognize, Counting.run_bind (hp.itemsFrom _ _ c)]
    rfl

theorem many1 (hp : p.Follows count q) : p.many1.Follows count q.many1 where
  recognize := hp.recognize
  parse c recovery := by
    rw [Counted.many1, hp.recognize, Counting.run_bind (hp.itemsFrom _ _ c)]
    rfl

theorem suffixed {suffix : Counted τ β} {mark : Parser τ β} (hp : p.Follows count q)
    (hs : suffix.Follows count mark) : (p.suffixed suffix).Follows count (q.suffixed mark) where
  recognize := hp.recognize
  parse c recovery := by
    simp only [Counted.suffixed, Parser.suffixed, hs.recognize, Counting.run_bind (hp.parse c _)]
    cases q.parse c (recovery.or mark.recognize) with
    | error e => rfl
    | ok b =>
      simp only [Counting.run_bind (hs.parse (c.moveTo b.position) recovery)]
      cases mark.parse (c.moveTo b.position) recovery <;> rfl

end Follows

end Counted

namespace CountedChain

theorem ofChain_follows (plain : Chain τ α) : (ofChain plain).Follows count plain where
  head := rfl
  run _ _ := rfl

theorem of_follows {p : Counted τ α} {q : Parser τ α} (hp : p.Follows count q) :
    (of p).Follows count (.of q) where
  head := hp.recognize
  run := hp.parse

namespace Follows

variable {chain : CountedChain τ α} {plain : Chain τ α} {p : Counted τ β} {q : Parser τ β}

theorem and (hc : chain.Follows count plain) (hp : p.Follows count q) :
    (chain.and p).Follows count (plain.and q) where
  head := hc.head
  run c recovery := by
    simp only [CountedChain.and, Chain.and, Chain.required, hp.recognize,
      Counting.run_bind (hc.run c _)]
    cases plain.run c (recovery.or q.recognize) with
    | error e => rfl
    | ok left =>
      simp only [Counting.run_bind (hp.search recovery recovery (c.moveTo left.position))]
      cases q.search recovery recovery (c.moveTo left.position) <;> rfl

theorem andRecover [HasSpan τ] (hc : chain.Follows count plain) (hp : p.Follows count q)
    (missing : α → μ) : (chain.andRecover p missing).Follows count (plain.andRecover q missing) where
  head := hc.head
  run c recovery := by
    simp only [CountedChain.andRecover, Chain.andRecover, hp.recognize,
      Counting.run_bind (hc.run c _)]
    cases plain.run c (recovery.or q.recognize) with
    | error e => rfl
    | ok left =>
      simp only [Counting.run_bind (hp.search recovery recovery (c.moveTo left.position))]
      cases q.search recovery recovery (c.moveTo left.position) <;> rfl

theorem toParser (hc : chain.Follows count plain) :
    chain.toParser.Follows count plain.toParser where
  recognize := hc.head
  parse c recovery := by
    simp only [CountedChain.toParser, Chain.toParser, hc.head]
    split
    · exact hc.run c recovery
    · rfl

theorem onValue (hc : chain.Follows count plain) (f : α → γ) :
    (chain.onValue f).Follows count (plain.onValue f) where
  head := hc.head
  run c recovery := by
    rw [CountedChain.onValue, Counting.run_bind (hc.run c recovery)]
    rfl

theorem map (hc : chain.Follows count plain) (f : α → γ) :
    (chain.map f).Follows count (plain.map f) := (hc.onValue f).toParser

end Follows

end CountedChain

/-! ## With and without levels taken -/

/-- From this count `p` leaves it as it was, and with no level taken it reads what `q` does. -/
def Counted.Restores (count : Nat) (p : Counted τ α) (q : Parser τ α) : Prop :=
  ∃ r, p.Follows count r ∧ (count = 0 → r = q)

def CountedChain.Restores (count : Nat) (chain : CountedChain τ α) (plain : Chain τ α) : Prop :=
  ∃ r, chain.Follows count r ∧ (count = 0 → r = plain)

theorem Counted.Follows.restores {p : Counted τ α} {q : Parser τ α} (h : p.Follows count q) :
    p.Restores count q := ⟨q, h, fun _ => rfl⟩

theorem CountedChain.Follows.restores {chain : CountedChain τ α} {plain : Chain τ α}
    (h : chain.Follows count plain) : chain.Restores count plain := ⟨plain, h, fun _ => rfl⟩

namespace Counted.Restores

variable {p : Counted τ α} {q : Parser τ α}

/-- Whatever is built from a parser. -/
theorem lift (h : p.Restores count q) {build : Counted τ α → Counted τ β}
    {plain : Parser τ α → Parser τ β}
    (keeps : ∀ {r}, p.Follows count r → (build p).Follows count (plain r)) :
    (build p).Restores count (plain q) := by
  obtain ⟨r, hr, same⟩ := h
  exact ⟨plain r, keeps hr, fun none => congrArg plain (same none)⟩

theorem map (h : p.Restores count q) (f : α → β) : (p.map f).Restores count (q.map f) :=
  h.lift fun hr => hr.map f

theorem opt (h : p.Restores count q) : p.opt.Restores count q.opt := h.lift Follows.opt

theorem many0 (h : p.Restores count q) : p.many0.Restores count q.many0 := h.lift Follows.many0

theorem alt {ps : List (Counted τ α)} {qs : List (Parser τ α)}
    (h : List.Forall₂ (Restores count) ps qs) : (alt ps).Restores count (.alt qs) := by
  have parts : ∃ rs, List.Forall₂ (Follows count) ps rs ∧ (count = 0 → rs = qs) := by
    induction h with
    | nil => exact ⟨[], .nil, fun _ => rfl⟩
    | cons hp _ ih =>
      obtain ⟨r, hr, same⟩ := hp
      obtain ⟨rs, hrs, rest⟩ := ih
      exact ⟨r :: rs, .cons hr hrs, fun none => by rw [same none, rest none]⟩
  obtain ⟨rs, hrs, same⟩ := parts
  exact ⟨.alt rs, .alt hrs, fun none => by rw [same none]⟩

end Counted.Restores

namespace CountedChain

theorem of_restores {p : Counted τ α} {q : Parser τ α} (h : p.Restores count q) :
    (of p).Restores count (.of q) := by
  obtain ⟨r, hr, same⟩ := h
  exact ⟨.of r, of_follows hr, fun none => by rw [same none]⟩

namespace Restores

variable {chain : CountedChain τ α} {plain : Chain τ α} {p : Counted τ β} {q : Parser τ β}

theorem and (hc : chain.Restores count plain) (hp : p.Restores count q) :
    (chain.and p).Restores count (plain.and q) := by
  obtain ⟨before, hb, sameBefore⟩ := hc
  obtain ⟨r, hr, same⟩ := hp
  exact ⟨before.and r, hb.and hr, fun none => by rw [sameBefore none, same none]⟩

theorem andRecover [HasSpan τ] (hc : chain.Restores count plain) (hp : p.Restores count q)
    (missing : α → μ) :
    (chain.andRecover p missing).Restores count (plain.andRecover q missing) := by
  obtain ⟨before, hb, sameBefore⟩ := hc
  obtain ⟨r, hr, same⟩ := hp
  exact ⟨before.andRecover r missing, hb.andRecover hr missing, fun none => by
    rw [sameBefore none, same none]⟩

theorem onValue (hc : chain.Restores count plain) (f : α → γ) :
    (chain.onValue f).Restores count (plain.onValue f) := by
  obtain ⟨r, hr, same⟩ := hc
  exact ⟨r.onValue f, hr.onValue f, fun none => by rw [same none]⟩

theorem map (hc : chain.Restores count plain) (f : α → γ) :
    (chain.map f).Restores count (plain.map f) := by
  obtain ⟨r, hr, same⟩ := hc
  exact ⟨r.map f, hr.map f, fun none => by rw [same none]⟩

end Restores

end CountedChain

end GraphQL.Recovery
