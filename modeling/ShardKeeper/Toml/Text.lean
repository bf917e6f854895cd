/-!
# Strings in TOML

Each of the four kinds of string is read from behind its opening quotes; the result is its text and
what follows its closing quotes.

## Main definitions

* `Toml.Text.basic`, `Toml.Text.literal` — strings of one line
* `Toml.Text.multilineBasic`, `Toml.Text.multilineLiteral` — strings of several lines
-/

namespace ShardKeeper.Toml.Text

/-- Whether a character may stand on a line as it is: everything but the controls, a tab aside. -/
def isPlain (c : Char) : Bool := c = '\t' || (0x20 ≤ c.toNat && c.toNat ≠ 0x7F)

/-- Space and tab. -/
def isSpace (c : Char) : Bool := c = ' ' || c = '\t'

/-- The value of a hexadecimal digit. -/
def hexValue? (c : Char) : Option Nat :=
  if c.isDigit then some (c.toNat - 48)
  else if 'a' ≤ c && c ≤ 'f' then some (c.toNat - 87)
  else if 'A' ≤ c && c ≤ 'F' then some (c.toNat - 55)
  else none

/-- The character whose code point is spelled by hexadecimal digits. -/
def codePoint? (digits : List Char) : Option Char := do
  let n ← digits.foldlM (fun n c => (hexValue? c).map fun d => 16 * n + d) 0
  if n < 0xD800 || (0xE000 ≤ n && n < 0x110000) then some (Char.ofNat n) else none

/-- The character that a backslash and a letter stand for. -/
def escaped? (c : Char) : Option Char :=
  match c with
  | 'b' => some '\x08'
  | 't' => some '\t'
  | 'n' => some '\n'
  | 'f' => some '\x0c'
  | 'r' => some '\r'
  | 'e' => some '\x1b'
  | '"' => some '"'
  | '\\' => some '\\'
  | _ => none

/-- The number of hexadecimal digits after a backslash and a letter. -/
def escapeWidth (c : Char) : Nat :=
  match c with
  | 'x' => 2
  | 'u' => 4
  | 'U' => 8
  | _ => 0

/-- The character of an escape, given from behind its backslash, and how many characters the escape
takes. -/
def escape? : List Char → Option (Char × Nat)
  | [] => none
  | c :: rest =>
    let width := escapeWidth c
    if width = 0 then (escaped? c).map fun e => (e, 1)
    else
      let digits := rest.take width
      if digits.length = width then (codePoint? digits).map fun e => (e, width + 1) else none

/-! ### Strings of one line -/

/-- A string with escapes. The first `skip` characters belong to an escape that was read before. -/
def basic (skip : Nat) : List Char → Option (List Char × List Char)
  | [] => none
  | c :: rest =>
    match skip with
    | skip + 1 => basic skip rest
    | 0 =>
      if c = '"' then some ([], rest)
      else if c = '\\' then do
        let (e, width) ← escape? rest
        let (text, rest) ← basic width rest
        return (e :: text, rest)
      else if isPlain c then do
        let (text, rest) ← basic 0 rest
        return (c :: text, rest)
      else none

/-- A string without escapes. -/
def literal : List Char → Option (List Char × List Char)
  | [] => none
  | c :: rest =>
    if c = '\'' then some ([], rest)
    else if isPlain c then do
      let (text, rest) ← literal rest
      return (c :: text, rest)
    else none

/-! ### Strings of several lines -/

/-- What follows a line end at the front of a text. -/
def afterLineEnd? : List Char → Option (List Char)
  | '\n' :: rest => some rest
  | '\r' :: '\n' :: rest => some rest
  | _ => none

/-- What follows the line end right behind the opening quotes, if there is one. -/
def skipLineEnd (text : List Char) : List Char := (afterLineEnd? text).getD text

/-- Whether only spaces stand in front of the next line end. -/
def endsLine (text : List Char) : Bool := (afterLineEnd? (text.dropWhile isSpace)).isSome

/-- The closing quotes at the front of a text, up to two quotes in front of them belonging to the
string: these, and what follows. -/
def closing? (quote : Char) (text : List Char) : Option (List Char × List Char) :=
  let count := (text.takeWhile (· = quote)).length
  if count < 3 then none
  else
    let own := min (count - 3) 2
    some (List.replicate own quote, text.drop (own + 3))

/-- What a string with escapes does with its next characters. -/
inductive Mode where
  /-- So many of them belong to an escape that was read before. -/
  | skip (count : Nat)
  /-- Blanks and line ends are passed over, as a backslash ended the line before. -/
  | join

/-- A string of several lines with escapes. -/
def multilineBasic (mode : Mode) : List Char → Option (List Char × List Char)
  | [] => none
  | c :: rest =>
    match mode with
    | .skip (count + 1) => multilineBasic (.skip count) rest
    | .join =>
      if isSpace c || c = '\n' || (c = '\r' && rest.head? = some '\n') then
        multilineBasic .join rest
      else plain c rest
    | .skip 0 => plain c rest
where
  /-- The string from a character on that is not passed over. -/
  plain (c : Char) (rest : List Char) : Option (List Char × List Char) :=
    if c = '"' then
      match closing? '"' (c :: rest) with
      | some done => some done
      | none => do
        let (text, rest) ← multilineBasic (.skip 0) rest
        return (c :: text, rest)
    else if c = '\\' then
      if endsLine rest then multilineBasic .join rest
      else do
        let (e, width) ← escape? rest
        let (text, rest) ← multilineBasic (.skip width) rest
        return (e :: text, rest)
    else if isPlain c || c = '\n' || (c = '\r' && rest.head? = some '\n') then do
      let (text, rest) ← multilineBasic (.skip 0) rest
      return (c :: text, rest)
    else none

/-- A string of several lines without escapes. -/
def multilineLiteral : List Char → Option (List Char × List Char)
  | [] => none
  | c :: rest =>
    match if c = '\'' then closing? '\'' (c :: rest) else none with
    | some done => some done
    | none =>
      if isPlain c || c = '\n' || (c = '\r' && rest.head? = some '\n') then do
        let (text, rest) ← multilineLiteral rest
        return (c :: text, rest)
      else none

end ShardKeeper.Toml.Text
