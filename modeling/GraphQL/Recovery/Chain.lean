import GraphQL.Recovery.Parser

/-! # Chains

A `Chain` parses its steps in order. Each step waits for its own part: what comes before it is
parsed with the recovery point widened by that part, then tokens are passed over until the part or
the recovery point is there. A required part (`and`) fails the chain where the recovery point wins,
a recoverable one (`andRecover`) records a gap. A chain is only tried where its head is
recognized. -/

namespace GraphQL.Recovery

set_option autoImplicit false

variable {τ α β γ μ : Type}

/-- Steps parsed in order, and what must be recognized for them to be tried. -/
structure Chain (τ α : Type) where
  head : Recognizer τ
  run : Cursor τ → Recognizer τ → Except ParseError (Reading α)

namespace Chain

def of (first : Parser τ α) : Chain τ α := ⟨first.recognize, first.parse⟩

/-- Parses the steps so far, then a required part. -/
def required (chain : Chain τ α) (next : Parser τ β) (c : Cursor τ) (recovery : Recognizer τ) :
    Except ParseError (Reading (α × β)) :=
  match chain.run c (recovery.or next.recognize) with
  | .error e => .error e
  | .ok left =>
    match next.search recovery recovery (c.moveTo left.position) with
    | .found r passed =>
      .ok ⟨(left.value, r.value), r.position, left.skipped ++ (r.skipped ++ passed)⟩
    | .recovered _ _ => .error .refused
    | .exhausted => .error .incomplete

/-- One more required part. -/
def and (chain : Chain τ α) (next : Parser τ β) : Chain τ (α × β) where
  head := chain.head
  run := chain.required next

/-- One more required part, which the chain is also recognized by. -/
def andRecognize (chain : Chain τ α) (next : Parser τ β) : Chain τ (α × β) where
  head := chain.head.or next.recognize
  run := chain.required next

/-- One more part whose absence is recorded. -/
def andRecover [HasSpan τ] (chain : Chain τ α) (next : Parser τ β) (missing : α → μ) :
    Chain τ (α × Slot μ β) where
  head := chain.head
  run c recovery :=
    match chain.run c (recovery.or next.recognize) with
    | .error e => .error e
    | .ok left =>
      let c := c.moveTo left.position
      match next.search recovery recovery c with
      | .found r passed =>
        .ok ⟨(left.value, .present r.value), r.position, left.skipped ++ (r.skipped ++ passed)⟩
      | .recovered stop passed =>
        .ok ⟨(left.value, .missing ((c.moveTo stop).gap (missing left.value))), stop,
          left.skipped ++ passed⟩
      | .exhausted => .error .incomplete

def toParser (chain : Chain τ α) : Parser τ α where
  recognize := chain.head
  parse c recovery := if chain.head c then chain.run c recovery else .error .refused

def onValue (f : α → β) (chain : Chain τ α) : Chain τ β where
  head := chain.head
  run c recovery := (chain.run c recovery).map fun r => ⟨f r.value, r.position, r.skipped⟩

def map (f : α → β) (chain : Chain τ α) : Parser τ β := (chain.onValue f).toParser

/-- `opening`, `body` and a `closing` whose absence is recorded as told by the opening. -/
def delimited [HasSpan τ] (opening : Parser τ α) (body : Parser τ β) (closing : Parser τ γ)
    (unclosed : α → μ) : Chain τ ((α × β) × Slot μ γ) :=
  ((of opening).and body).andRecover closing fun left => unclosed left.1

end Chain

end GraphQL.Recovery
