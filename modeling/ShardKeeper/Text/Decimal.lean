/-!
# Decimal numerals

Numbers written in decimal digits.

## Main definitions

* `Decimal.ofNat`, `Decimal.ofInt` — the shortest numeral of a number
* `Decimal.isNumeral` — one or more of the ten ASCII digits and nothing else
* `Decimal.value` — the number that digits spell
* `Decimal.nat?` — the number spelled by a numeral
* `Decimal.int?` — the same with an optional sign in front
-/

namespace ShardKeeper.Decimal

/-- The value of one digit. -/
def digitValue (c : Char) : Nat := c.toNat - '0'.toNat

/-- The number spelled by digits, most significant first. -/
def value (digits : List Char) : Nat := digits.foldl (fun n c => 10 * n + digitValue c) 0

/-- Whether a text is one or more ASCII digits. -/
def isNumeral (text : List Char) : Bool := !text.isEmpty && text.all Char.isDigit

/-- The number that a text of ASCII digits spells; leading zeros are allowed. -/
def nat? (text : List Char) : Option Nat := if isNumeral text then some (value text) else none

/-- The integer that a text of ASCII digits with an optional sign spells. -/
def int? : List Char → Option Int
  | '-' :: digits => (nat? digits).map fun n => -(n : Int)
  | '+' :: digits => (nat? digits).map fun n => (n : Int)
  | digits => (nat? digits).map fun n => (n : Int)

/-- The decimal digits of a natural number. -/
def ofNat (n : Nat) : List Char := Nat.toDigits 10 n

/-- The decimal digits of an integer, after a minus sign if it is negative. -/
def ofInt : Int → List Char
  | .ofNat n => ofNat n
  | .negSucc n => '-' :: ofNat (n + 1)

/-! ### Integer widths -/

/-- The least integer of 64 bits with a sign. -/
def minInt64 : Int := -9223372036854775808

/-- The greatest integer of 64 bits with a sign. -/
def maxInt64 : Int := 9223372036854775807

/-- The integers of 64 bits with a sign. -/
def fitsInt64 (n : Int) : Bool := minInt64 ≤ n && n ≤ maxInt64

end ShardKeeper.Decimal
