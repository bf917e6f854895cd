import ShardKeeper.Json.Basic
import ShardKeeper.Text.Decimal

/-!
# Writing a JSON document

## Main definitions

* `Json.render` — the document without any space
* `Json.renderIndented` — one member or item a line, two spaces deeper at each level

Inside strings the quote, the backslash and the control characters are escaped, the latter by their
letter where they have one; everything else stands as it is.
-/

namespace ShardKeeper.Json

/-! ### Strings -/

/-- The lower-case hexadecimal digit of a number below sixteen. -/
def hexDigit (n : Nat) : Char := Nat.digitChar n

/-- One byte inside a string. -/
def escapeByte (b : UInt8) : List Char :=
  if b = 0x22 then ['\\', '"']
  else if b = 0x5C then ['\\', '\\']
  else if b = 0x08 then ['\\', 'b']
  else if b = 0x0C then ['\\', 'f']
  else if b = 0x0A then ['\\', 'n']
  else if b = 0x0D then ['\\', 'r']
  else if b = 0x09 then ['\\', 't']
  else ['\\', 'u', '0', '0', hexDigit (b.toNat / 16), hexDigit (b.toNat % 16)]

/-- Whether a byte is escaped inside a string. -/
def needsEscape (b : UInt8) : Bool := b < 0x20 || b == 0x22 || b == 0x5C

/-- The bytes of a text as they are written between quotes. -/
def escapeBytes (bytes : Bytes) : Bytes :=
  bytes.flatMap fun b => if needsEscape b then Utf8.encode (escapeByte b) else [b]

/-- A string between quotes. A string that spells no text is written as half of a surrogate
pair. -/
def renderString : Option String → Bytes
  | some s => 0x22 :: escapeBytes (Utf8.ofString s) ++ [0x22]
  | none => Utf8.ofString "\"\\ud800\""

/-- A number that is no integer, with an exponent. -/
def renderDecimal (negative : Bool) (coefficient : Nat) (exponent : Int) : Bytes :=
  Utf8.encode ((if negative then ['-'] else []) ++ Decimal.ofNat coefficient ++ ['e']
    ++ Decimal.ofInt exponent)

/-! ### Without space -/

mutual

/-- A document without any space. -/
def render : Json → Bytes
  | .null => Utf8.ofString "null"
  | .bool true => Utf8.ofString "true"
  | .bool false => Utf8.ofString "false"
  | .integer n => Utf8.encode (Decimal.ofInt n)
  | .decimal negative coefficient exponent => renderDecimal negative coefficient exponent
  | .string s => renderString s
  | .array items => 0x5B :: renderItems items ++ [0x5D]
  | .object members => 0x7B :: renderMembers members ++ [0x7D]

/-- Items with commas between them. -/
def renderItems : List Json → Bytes
  | [] => []
  | [v] => render v
  | v :: w :: rest => render v ++ 0x2C :: renderItems (w :: rest)

/-- Members with commas between them. -/
def renderMembers : List (Option String × Json) → Bytes
  | [] => []
  | [(k, v)] => renderString k ++ 0x3A :: render v
  | (k, v) :: m :: rest => renderString k ++ 0x3A :: render v ++ 0x2C :: renderMembers (m :: rest)

end

/-! ### Indented -/

/-- A line feed and the indentation of a level. -/
def newLine (depth : Nat) : Bytes := 0x0A :: List.replicate (2 * depth) 0x20

mutual

/-- A document whose items and members stand on lines of their own, `depth` levels deep. -/
def renderAt (depth : Nat) : Json → Bytes
  | .array [] => [0x5B, 0x5D]
  | .array (v :: rest) =>
    0x5B :: newLine (depth + 1) ++ renderAt (depth + 1) v ++ renderItemsAt (depth + 1) rest
      ++ newLine depth ++ [0x5D]
  | .object [] => [0x7B, 0x7D]
  | .object ((k, v) :: rest) =>
    0x7B :: newLine (depth + 1) ++ renderString k ++ [0x3A, 0x20] ++ renderAt (depth + 1) v
      ++ renderMembersAt (depth + 1) rest ++ newLine depth ++ [0x7D]
  | .null => Utf8.ofString "null"
  | .bool true => Utf8.ofString "true"
  | .bool false => Utf8.ofString "false"
  | .integer n => Utf8.encode (Decimal.ofInt n)
  | .decimal negative coefficient exponent => renderDecimal negative coefficient exponent
  | .string s => renderString s

/-- The items after the first, each after a comma and a new line. -/
def renderItemsAt (depth : Nat) : List Json → Bytes
  | [] => []
  | v :: rest => 0x2C :: newLine depth ++ renderAt depth v ++ renderItemsAt depth rest

/-- The members after the first, each after a comma and a new line. -/
def renderMembersAt (depth : Nat) : List (Option String × Json) → Bytes
  | [] => []
  | (k, v) :: rest =>
    0x2C :: newLine depth ++ renderString k ++ [0x3A, 0x20] ++ renderAt depth v
      ++ renderMembersAt depth rest

end

/-- A document whose items and members stand on lines of their own. -/
def renderIndented (v : Json) : Bytes := renderAt 0 v

end ShardKeeper.Json
