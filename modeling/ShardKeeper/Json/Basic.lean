import ShardKeeper.Text.Utf8

/-!
# JSON documents

A JSON document as it was written: repeated and unknown keys are kept, and numbers keep the
difference between an integer and anything else.

## Main definitions

* `Json` — a document
* `Json.Token` — the smallest pieces of its text

## Design notes

A string is `none` when its text is well formed as a token but spells no Unicode text (bytes that
are no UTF-8, or half of a surrogate pair). Such a string may stand wherever nobody looks at it.
-/

namespace ShardKeeper

/-- A JSON document. An integer is a number written without fraction and exponent in at most 64 bits
and a sign, `-0` excepted. Any other number is a decimal, `coefficient * 10 ^ exponent` with a sign;
its coefficient has no more of the written digits than fit in 64 bits. -/
inductive Json where
  | null
  | bool (b : Bool)
  | integer (n : Int)
  | decimal (negative : Bool) (coefficient : Nat) (exponent : Int)
  | string (s : Option String)
  | array (items : List Json)
  | object (members : List (Option String × Json))
deriving Inhabited

namespace Json

/-- The document that is one string. -/
def text (s : String) : Json := .string (some s)

/-- The document that is one natural number. -/
def nat (n : Nat) : Json := .integer n

/-- The object with the given members. -/
def record (members : List (String × Json)) : Json :=
  .object (members.map fun m => (some m.1, m.2))

/-- The smallest pieces of a document's text. A `leaf` is a literal or a number. -/
inductive Token where
  | openBrace
  | closeBrace
  | openBracket
  | closeBracket
  | comma
  | colon
  | string (s : Option String)
  | leaf (value : Json)

end Json

end ShardKeeper
