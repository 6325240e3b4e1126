import GraphQL.Text.Number
import GraphQL.Token

/-! # Token buffers

A `TokenBuffer` numbers tokens from 0 in the order in which they were added. Asking for a number
that was not given is an error. -/

namespace GraphQL

set_option autoImplicit false

structure TokenBuffer where
  tokens : Array Token := #[]

structure InvalidTokenId where
  id : Int
deriving DecidableEq, Repr

def InvalidTokenId.message (error : InvalidTokenId) : Text :=
  "Invalid TokenId: " ++ Text.ofInt error.id

namespace TokenBuffer

def add (token : Token) (buffer : TokenBuffer) : TokenBuffer × Nat :=
  (⟨buffer.tokens.push token⟩, buffer.tokens.size)

def size (buffer : TokenBuffer) : Nat := buffer.tokens.size

def isValid (buffer : TokenBuffer) (id : Int) : Bool := decide (0 ≤ id ∧ id < buffer.size)

def get (buffer : TokenBuffer) (id : Int) : Except InvalidTokenId Token :=
  if id < 0 then .error ⟨id⟩
  else
    match buffer.tokens[id.toNat]? with
    | some token => .ok token
    | none => .error ⟨id⟩

/-- Where a bound lies in a buffer: a negative one counts from the end. -/
def bound (buffer : TokenBuffer) (n : Int) : Nat :=
  if n < 0 then (buffer.size + n).toNat else min n.toNat buffer.size

/-- The tokens from `start` up to but not including `stop`. -/
def slice (buffer : TokenBuffer) (start stop : Int) : List Token :=
  (buffer.tokens.toList.take (buffer.bound stop)).drop (buffer.bound start)

def entries (buffer : TokenBuffer) : List (Nat × Token) :=
  buffer.tokens.toList.mapIdx fun id token => (id, token)

theorem get_add (buffer : TokenBuffer) (token : Token) :
    (buffer.add token).1.get buffer.size = .ok token := by
  simp [add, get, size, show ¬ ((buffer.tokens.size : Int) < 0) by omega]

end TokenBuffer

end GraphQL
