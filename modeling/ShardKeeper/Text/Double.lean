/-!
# The range of double precision

A number of double precision has 53 significant bits, and the greatest one is a little less than
`2 ^ 1024`. What is rounded to something greater is infinite.

## Main definitions

* `Double.nearest` — a natural number rounded to 53 significant bits
* `Double.isFinite` — whether a decimal number, rounded once, is finite
* `Double.isFiniteProduct` — the same when its digits and its power of ten are rounded before they
  are multiplied

## Design notes

Only the range is asked for, never the number itself, so natural numbers are enough. Near its end
the two ways of rounding differ in both directions.
-/

namespace ShardKeeper.Double

/-- The least number that is rounded to infinity: it lies in the middle between the greatest finite
number and `2 ^ 1024`. -/
def bound : Nat := Nat.pow 2 1024 - Nat.pow 2 970

/-- A natural number rounded to 53 significant bits; a tie goes to the even neighbour. -/
def nearest (n : Nat) : Nat :=
  let unit := Nat.pow 2 (n.log2 + 1 - 53)
  let below := n / unit
  let rest := n % unit
  if unit < 2 * rest || (2 * rest = unit && below % 2 = 1) then (below + 1) * unit
  else below * unit

/-- Whether `coefficient * 10 ^ exponent` rounds to a finite number. -/
def isFinite (coefficient : Nat) (exponent : Int) : Bool :=
  let size : Int := (Nat.toDigits 10 coefficient).length + exponent
  if coefficient = 0 || size ≤ 308 then true
  else if 310 ≤ size then false
  else
    match exponent with
    | .ofNat e => coefficient * Nat.pow 10 e < bound
    | .negSucc e => coefficient < bound * Nat.pow 10 (e + 1)

/-- The greatest power of ten that is finite. -/
def greatestPower : Nat := 308

/-- Whether the product of the rounded `coefficient` and the rounded power of ten is finite. A
negative power divides, which is finite always. -/
def isFiniteProduct (coefficient : Nat) (exponent : Int) : Bool :=
  match exponent with
  | .ofNat e =>
    coefficient = 0 || (e ≤ greatestPower && nearest coefficient * nearest (Nat.pow 10 e) < bound)
  | .negSucc _ => true

end ShardKeeper.Double
