import ShardKeeper.Text.Invisible

/-!
# Quoted text

Text between double quotes, with everything that a reader could not see or would misread written
as an escape.

## Main definitions

* `Text.quote` — the quoted form of a text

A quote and a backslash take a backslash, the common controls their letter, and every other
invisible character its code point in hexadecimal. A single quote stands as it is.
-/

namespace ShardKeeper.Text

/-- The code point of a character in lower-case hexadecimal, in braces. -/
def codePointEscape (c : Char) : List Char :=
  ['\\', 'u', '\x7b'] ++ Nat.toDigits 16 c.toNat ++ ['\x7d']

/-- One character of a quoted text. -/
def quoteChar (c : Char) : List Char :=
  match c with
  | '\x00' => ['\\', '0']
  | '\t' => ['\\', 't']
  | '\r' => ['\\', 'r']
  | '\n' => ['\\', 'n']
  | '"' => ['\\', '"']
  | '\\' => ['\\', '\\']
  | c => if isInvisible c then codePointEscape c else [c]

/-- The text between double quotes, its invisible characters escaped. -/
def quote (text : String) : String :=
  String.ofList ('"' :: text.toList.flatMap quoteChar ++ ['"'])

end ShardKeeper.Text
