import GraphQL.Text

/-! # The text of a number

A number is written with the fewest digits that read back as the same double; of several such
numerals the nearest is taken, and of two equally near the even one.

* `Dyadic` is a positive double as an exact product `m · 2 ^ q` with the interval of what rounds to
  it,
* `Dyadic.shortest` finds digits and exponent in exact arithmetic,
* `Text.ofFloat` writes them: positionally from `1e-6` up to below `1e21`, with an exponent
  elsewhere,
* `Text.ofInt` writes integers as the doubles nearest to them. -/

namespace GraphQL

set_option autoImplicit false

/-- A positive double `m · 2 ^ q`; the gap to its lower neighbour is half as wide when
`narrowBelow`. -/
structure Dyadic where
  m : Nat
  q : Int
  narrowBelow : Bool

namespace Dyadic

/-- The double with these bits, its sign apart. Zero has `m = 0`. -/
def ofBits (bits : UInt64) : Dyadic :=
  let hidden := Nat.pow 2 52
  let fraction := bits.toNat % hidden
  let exponent := bits.toNat / hidden % Nat.pow 2 11
  if exponent = 0 then ⟨fraction, -1074, false⟩
  else ⟨hidden + fraction, (exponent : Int) - 1075, decide (fraction = 0 ∧ 1 < exponent)⟩

/-- The numerator of `k · 2 ^ (q - 2)`, that is `k` quarters of a unit in the last place, over the
denominator `2 ^ r · 10 ^ t`. -/
def quarters (d : Dyadic) (k r t : Nat) : Nat :=
  k * Nat.pow 2 (d.q + r - 2).toNat * Nat.pow 10 t

/-- The numerator of `10 ^ e` over the same denominator. -/
def tens (e : Int) (r t : Nat) : Nat := Nat.pow 2 r * Nat.pow 10 (e + t).toNat

/-- The power of two that makes quarters whole. -/
def twos (d : Dyadic) : Nat := (2 - d.q).toNat

/-- The least `n` from `-330` on with `m · 2 ^ q < 10 ^ n`. -/
def decimalExponent (d : Dyadic) : Int :=
  let below (n : Int) : Bool := decide (d.quarters (4 * d.m) d.twos 330 < tens n d.twos 330)
  (((List.range 700).map fun (i : Nat) => (i : Int) - 330).find? below).getD 0

/-- The numeral of `p` digits nearest to the double, if it reads back: digits `s` for
`s · 10 ^ (n - p)`. -/
def digits? (d : Dyadic) (n : Int) (p : Nat) : Option Nat :=
  let r := d.twos
  let t := (p - n).toNat
  let value := d.quarters (4 * d.m) r t
  let low := d.quarters (4 * d.m - if d.narrowBelow then 1 else 2) r t
  let high := d.quarters (4 * d.m + 2) r t
  let unit := tens (n - p) r t
  let readsBack (s : Nat) : Bool :=
    if d.m % 2 = 0 then decide (low ≤ s * unit ∧ s * unit ≤ high)
    else decide (low < s * unit ∧ s * unit < high)
  let s := value / unit
  match readsBack s, readsBack (s + 1) with
  | false, false => none
  | true, false => some s
  | false, true => some (s + 1)
  | true, true =>
    let down := value - s * unit
    let up := (s + 1) * unit - value
    if down < up ∨ (down = up ∧ s % 2 = 0) then some s else some (s + 1)

/-- The digits of the shortest numeral that reads back, and the exponent `n` of the power of ten
above it: `0.ddd · 10 ^ n`. Rounding up may carry into one more digit. -/
def shortest (d : Dyadic) : Nat × Int :=
  let n := d.decimalExponent
  let numeral? (p : Nat) : Option (Nat × Int) :=
    (d.digits? n p).map fun s => if s = Nat.pow 10 p then (1, n + 1) else (s, n)
  (((List.range 17).map (· + 1)).findSome? numeral?).getD (0, n)

end Dyadic

namespace Text

/-- Digits written with their point at `n`. -/
def placePoint (digits : Text) (n : Int) : Text :=
  let k := digits.length
  if k ≤ n ∧ n ≤ 21 then digits ++ List.replicate (n - k).toNat (unit '0')
  else if 0 < n ∧ n ≤ 21 then digits.take n.toNat ++ "." ++ digits.drop n.toNat
  else if -6 < n ∧ n ≤ 0 then "0." ++ List.replicate (-n).toNat (unit '0') ++ digits
  else
    let sign : Text := if 0 < n then "+" else "-"
    let fraction : Text := if k = 1 then [] else "." ++ digits.drop 1
    digits.take 1 ++ fraction ++ "e" ++ sign ++ ofNat (n - 1).natAbs

def ofFloat (x : Float) : Text :=
  if x.isNaN then "NaN"
  else if x == 0 then "0"
  else
    let sign : Text := if x < 0 then "-" else []
    if x.isInf then sign ++ "Infinity"
    else
      let (s, n) := (Dyadic.ofBits x.toBits).shortest
      let digits := ofNat s
      let significant := (digits.reverse.dropWhile (· == unit '0')).reverse
      sign ++ placePoint significant n

/-- The text of the double nearest to an integer. Up to `2 ^ 53` every integer is a double, and its
text is its decimal numeral. -/
def ofInt (n : Int) : Text :=
  if n.natAbs ≤ Nat.pow 2 53 then
    if n < 0 then "-" ++ ofNat n.natAbs else ofNat n.natAbs
  else ofFloat (Float.ofInt n)

end Text

end GraphQL
