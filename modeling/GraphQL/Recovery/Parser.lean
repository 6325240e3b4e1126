import GraphQL.Recovery.Cursor
import GraphQL.Text

/-! # Recovering parsers

A `Recognizer` is a test of what stands at a cursor. A `Parser` recognizes and parses. To parse it
is given the *recovery point*, a recognizer of what the enclosing constructs wait for: a parser may
pass over tokens it cannot use, but stops where the recovery point is recognized. A parser that
waits for something itself widens the recovery point of its parts with its own recognizer.

* `Parser.search` is the one loop that passes over tokens,
* `token`, `alt`, `opt`, `many0`, `many1`, `map`, `recover`, `suffixed` build parsers from it,
* `Parser.parseAll` runs a parser over a whole buffer. -/

namespace GraphQL.Recovery

set_option autoImplicit false

variable {τ α β μ : Type}

/-- A test of what stands at a cursor. -/
abbrev Recognizer (τ : Type) := Cursor τ → Bool

namespace Recognizer

/-- Recognizes what one of the two does. -/
def or (a b : Recognizer τ) : Recognizer τ := fun c => a c || b c

def never : Recognizer τ := fun _ => false

def endOfInput : Recognizer τ := Cursor.atEnd

end Recognizer

inductive ParseError where
  /-- The input ended before the construct was found. -/
  | incomplete
  /-- Another token stands where `what` was expected. -/
  | expected (what : Text)
  | noAlternative
  /-- A list that needs an item has none. -/
  | noItem
  /-- The construct does not start here, lacks a required part or nests too deep. -/
  | refused
deriving DecidableEq, Repr

/-- A successful parse: its value, the position behind it, and the positions it passed over. -/
structure Reading (α : Type) where
  value : α
  position : Nat
  skipped : List Nat

/-- Something that can be recognized, and parsed up to a recovery point. -/
structure Parser (τ α : Type) where
  recognize : Recognizer τ
  parse : Cursor τ → Recognizer τ → Except ParseError (Reading α)

/-- A part that may be lacking once its construct has begun. Where it is lacking the gap says what
was expected. -/
inductive Slot (μ α : Type) where
  | present (value : α)
  | missing (gap : Gap μ)

def Slot.value? : Slot μ α → Option α
  | .present a => some a
  | .missing _ => none

/-! ## Passing over tokens -/

/-- How a search ended: with the item, read after the tokens at `passed`; at the recovery point,
recognized at `position` after the tokens at `passed`; or at the end of the input. -/
inductive Search (α : Type) where
  | found (reading : Reading α) (passed : List Nat)
  | recovered (position : Nat) (passed : List Nat)
  | exhausted

/-- The same search begun one token earlier. -/
def Search.passing (position : Nat) : Search α → Search α
  | .found reading passed => .found reading (position :: passed)
  | .recovered stop passed => .recovered stop (position :: passed)
  | .exhausted => .exhausted

namespace Parser

/-- Tries the item, then the recovery point, and passes over a token where neither is there. -/
def search (item : Parser τ α) (itemRecovery recovery : Recognizer τ) (c : Cursor τ) : Search α :=
  match item.parse c itemRecovery with
  | .ok reading => .found reading []
  | .error _ =>
    if recovery c then .recovered c.position []
    else if c.position < c.tokens.size then
      (search item itemRecovery recovery c.advance).passing c.position
    else .exhausted
termination_by c.remaining
decreasing_by
  simp only [Cursor.remaining, Cursor.advance, Cursor.moveTo]
  omega

/-! ## Terminals -/

/-- One token, where `accept` gives a value for it. -/
def token (what : Text) (accept : τ → Option α) : Parser τ α where
  recognize c := (c.peek.bind accept).isSome
  parse c _ :=
    match c.peek with
    | none => .error .incomplete
    | some t =>
      match accept t with
      | none => .error (.expected what)
      | some value => .ok ⟨value, c.position + 1, []⟩

/-- A fixed number of tokens read without recovery. -/
def terminal (read : Cursor τ → Except ParseError (α × Cursor τ)) : Parser τ α where
  recognize c := (read c).isOk
  parse c _ := (read c).map fun found => ⟨found.1, found.2.position, []⟩

/-! ## Combinators -/

def map (f : α → β) (p : Parser τ α) : Parser τ β where
  recognize := p.recognize
  parse c recovery := (p.parse c recovery).map fun r => ⟨f r.value, r.position, r.skipped⟩

/-- The first alternative that parses. -/
def firstOf (c : Cursor τ) (recovery : Recognizer τ) :
    List (Parser τ α) → Except ParseError (Reading α)
  | [] => .error .noAlternative
  | p :: rest =>
    match p.parse c recovery with
    | .ok reading => .ok reading
    | .error _ => firstOf c recovery rest

/-- Ordered choice. -/
def alt (alternatives : List (Parser τ α)) : Parser τ α where
  recognize c := alternatives.any (·.recognize c)
  parse c recovery := firstOf c recovery alternatives

/-- An item that may be lacking. Tokens in front of it are passed over; where the recovery point
comes first nothing is. -/
def opt (p : Parser τ α) : Parser τ (Option α) where
  recognize := p.recognize
  parse c recovery :=
    match p.search recovery recovery c with
    | .found r passed => .ok ⟨some r.value, r.position, r.skipped ++ passed⟩
    | .recovered _ _ => .ok ⟨none, c.position, []⟩
    | .exhausted => .error .incomplete

/-- An item whose absence is recorded. Where the recovery point comes first the tokens in front of
it are passed over, and the gap is there. -/
def recover [HasSpan τ] (missing : μ) (p : Parser τ α) : Parser τ (Slot μ α) where
  recognize := p.recognize
  parse c recovery :=
    match p.search recovery recovery c with
    | .found r passed => .ok ⟨.present r.value, r.position, r.skipped ++ passed⟩
    | .recovered stop passed => .ok ⟨.missing ((c.moveTo stop).gap missing), stop, passed⟩
    | .exhausted => .error .incomplete

/-- Items up to the recovery point; each may pass over tokens, and the list ends behind an item
that consumed none. -/
def itemsFrom (item : Parser τ α) (itemRecovery recovery : Recognizer τ) (c : Cursor τ) :
    Reading (List α) :=
  match item.search itemRecovery recovery c with
  | .found r passed =>
    if (c.moveTo r.position).remaining < c.remaining then
      let rest := itemsFrom item itemRecovery recovery (c.moveTo r.position)
      ⟨r.value :: rest.value, rest.position, r.skipped ++ passed ++ rest.skipped⟩
    else ⟨[r.value], r.position, r.skipped ++ passed⟩
  | .recovered _ _ => ⟨[], c.position, []⟩
  | .exhausted => ⟨[], c.position, []⟩
termination_by c.remaining

/-- Any number of items. Each waits for the next one too. -/
def many0 (item : Parser τ α) : Parser τ (List α) where
  recognize := item.recognize
  parse c recovery := .ok (itemsFrom item (recovery.or item.recognize) recovery c)

def many1 (item : Parser τ α) : Parser τ (List α) where
  recognize := item.recognize
  parse c recovery :=
    let found := itemsFrom item (recovery.or item.recognize) recovery c
    if found.value.isEmpty then .error .noItem else .ok found

/-- An item and the suffix that may stand right behind it. -/
def suffixed (base : Parser τ α) (suffix : Parser τ β) : Parser τ (α × Option β) where
  recognize := base.recognize
  parse c recovery :=
    match base.parse c (recovery.or suffix.recognize) with
    | .error e => .error e
    | .ok b =>
      match suffix.parse (c.moveTo b.position) recovery with
      | .error _ => .ok ⟨(b.value, none), b.position, b.skipped⟩
      | .ok s => .ok ⟨(b.value, some s.value), s.position, b.skipped ++ s.skipped⟩

/-- A construct that is nested too deep here: it is recognized and fails. -/
def tooDeep (recognize : Recognizer τ) : Parser τ α where
  recognize := recognize
  parse _ _ := .error .refused

/-! ## Whole buffers -/

/-- Runs a parser over a buffer up to its end. -/
def parseAll [HasSpan τ] (p : Parser τ α) (tokens : Array τ) : Option (α × List (Run τ)) :=
  match p.parse (Cursor.start tokens) Recognizer.endOfInput with
  | .error _ => none
  | .ok r => some (r.value, Cursor.runs ⟨tokens, r.position⟩ r.skipped)

end Parser

end GraphQL.Recovery
