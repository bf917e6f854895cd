import ShardKeeper.Toml.Scalar
import ShardKeeper.Toml.Text

/-!
# The lines of a TOML document

## Main definitions

* `Toml.scanKey`, `Toml.scanValue` — a dotted key and a value at the front of a text
* `Toml.statements?` — the assignments and headers of a whole text

## Design notes

The scanners of nested values count down from the length of the text: every step into a value, an
item or an assignment comes with a character of its own, or with the opening bracket before it. The
`room` they carry along is the number of brackets and braces that may still be opened; like the
number of names in a key it is bounded by `Toml.depthLimit`.
-/

namespace ShardKeeper.Toml

open ShardKeeper.Toml.Text (isSpace isPlain afterLineEnd?)

/-- A text without the spaces and tabs it begins with. -/
def skipSpace (text : List Char) : List Char := text.dropWhile isSpace

/-- How many containers may stand in one another, and how many names a key may have. -/
def depthLimit : Nat := 80

/-! ### Keys -/

/-- The characters of a key without quotes. -/
def isKeyChar (c : Char) : Bool := c.isAlphanum || c = '_' || c = '-'

/-- One name at the front of a text: bare or between quotes of either kind. -/
def scanName (text : List Char) : Option (String × List Char) :=
  match text with
  | '"' :: rest => (Text.basic 0 rest).map fun (name, rest) => (String.ofList name, rest)
  | '\'' :: rest => (Text.literal rest).map fun (name, rest) => (String.ofList name, rest)
  | _ =>
    let name := text.takeWhile isKeyChar
    if name.isEmpty then none else some (String.ofList name, text.dropWhile isKeyChar)

/-- Names with dots between them, and spaces around the dots. -/
def scanKeyBelow (fuel : Nat) (text : List Char) : Option (Key × List Char) :=
  match fuel with
  | 0 => none
  | fuel + 1 => do
    let (name, rest) ← scanName text
    match skipSpace rest with
    | '.' :: rest =>
      let (key, rest) ← scanKeyBelow fuel (skipSpace rest)
      return (name :: key, rest)
    | rest => return ([name], rest)

/-- A key at the front of a text, and what follows it and the spaces behind it. -/
def scanKey (text : List Char) : Option (Key × List Char) :=
  (scanKeyBelow (text.length + 1) text).filter fun (key, _) => key.length ≤ depthLimit

/-! ### Values -/

/-- The characters of a value without quotes. -/
def isWordChar (c : Char) : Bool :=
  c.isAlphanum || c = '_' || c = '-' || c = '+' || c = '.' || c = ':'

/-- A value without quotes. One space may stand between a date and a time of day. -/
def scanWord (text : List Char) : Option (Toml × List Char) :=
  let word := text.takeWhile isWordChar
  let rest := text.dropWhile isWordChar
  match rest with
  | ' ' :: d :: more =>
    if d.isDigit && (Scalar.date? word).any List.isEmpty then
      let time := (d :: more).takeWhile isWordChar
      (Scalar.ofWord? (word ++ ' ' :: time)).map fun v => (v, (d :: more).dropWhile isWordChar)
    else (Scalar.ofWord? word).map fun v => (v, rest)
  | _ => (Scalar.ofWord? word).map fun v => (v, rest)

mutual

/-- What follows the spaces, line ends and comments at the front of a text. -/
def skipBlanks : List Char → Option (List Char)
  | [] => some []
  | c :: rest =>
    if isSpace c || c = '\n' || (c = '\r' && rest.head? = some '\n') then skipBlanks rest
    else if c = '#' then skipComment rest
    else some (c :: rest)

/-- The same inside a comment. -/
def skipComment : List Char → Option (List Char)
  | [] => some []
  | c :: rest =>
    if c = '\n' || (c = '\r' && rest.head? = some '\n') then skipBlanks rest
    else if isPlain c then skipComment rest
    else none

end

/-- The string with given characters, and what follows it. -/
def asString (scanned : Option (List Char × List Char)) : Option (Literal × List Char) :=
  scanned.map fun (text, rest) => (.scalar (.string (String.ofList text)), rest)

mutual

/-- A value at the front of a text. -/
def scanValueBelow (fuel room : Nat) (text : List Char) : Option (Literal × List Char) :=
  match fuel with
  | 0 => none
  | fuel + 1 =>
    match text with
    | '"' :: '"' :: '"' :: rest =>
      asString (Text.multilineBasic (.skip 0) (Text.skipLineEnd rest))
    | '"' :: rest => asString (Text.basic 0 rest)
    | '\'' :: '\'' :: '\'' :: rest => asString (Text.multilineLiteral (Text.skipLineEnd rest))
    | '\'' :: rest => asString (Text.literal rest)
    | '[' :: rest =>
      match room with
      | 0 => none
      | room + 1 => (scanItems fuel room rest).map fun (items, rest) => (.array items, rest)
    | '\x7b' :: rest =>
      match room with
      | 0 => none
      | room + 1 =>
        (scanAssignments fuel room rest).map fun (entries, rest) => (.inlineTable entries, rest)
    | text => (scanWord text).map fun (v, rest) => (.scalar v, rest)

/-- The items of an array up to its closing bracket. -/
def scanItems (fuel room : Nat) (text : List Char) : Option (List Literal × List Char) :=
  match fuel with
  | 0 => none
  | fuel + 1 => do
    match ← skipBlanks text with
    | ']' :: rest => return ([], rest)
    | text =>
      let (item, rest) ← scanValueBelow fuel room text
      match ← skipBlanks rest with
      | ']' :: rest => return ([item], rest)
      | ',' :: rest =>
        let (items, rest) ← scanItems fuel room rest
        return (item :: items, rest)
      | _ => none

/-- The assignments of an inline table up to its closing brace. Line ends and comments may stand
between any two of its parts. -/
def scanAssignments (fuel room : Nat) (text : List Char) :
    Option (List (Key × Literal) × List Char) :=
  match fuel with
  | 0 => none
  | fuel + 1 => do
    match ← skipBlanks text with
    | '\x7d' :: rest => return ([], rest)
    | text =>
      let (key, rest) ← scanKey text
      match ← skipBlanks rest with
      | '=' :: rest =>
        let (value, rest) ← scanValueBelow fuel room (← skipBlanks rest)
        match ← skipBlanks rest with
        | '\x7d' :: rest => return ([(key, value)], rest)
        | ',' :: rest =>
          let (entries, rest) ← scanAssignments fuel room rest
          return ((key, value) :: entries, rest)
        | _ => none
      | _ => none

end

/-- A value at the front of a text, and what follows it. -/
def scanValue (text : List Char) : Option (Literal × List Char) :=
  scanValueBelow (2 * text.length + 2) depthLimit text

/-! ### Lines -/

/-- What follows the rest of a line on which nothing more may stand than spaces and a comment. -/
def endLine (text : List Char) : Option (List Char) :=
  match skipSpace text with
  | [] => some []
  | '#' :: rest =>
    match rest.dropWhile isPlain with
    | [] => some []
    | rest => afterLineEnd? rest
  | rest => afterLineEnd? rest

/-- The statement at the front of a text, and what follows it on its line. -/
def scanStatement (text : List Char) : Option (Statement × List Char) :=
  match text with
  | '[' :: '[' :: rest => do
    let (key, rest) ← scanKey (skipSpace rest)
    match rest with
    | ']' :: ']' :: rest => return (.arrayHeader key, rest)
    | _ => none
  | '[' :: rest => do
    let (key, rest) ← scanKey (skipSpace rest)
    match rest with
    | ']' :: rest => return (.header key, rest)
    | _ => none
  | _ => do
    let (key, rest) ← scanKey text
    match rest with
    | '=' :: rest =>
      let (value, rest) ← scanValue (skipSpace rest)
      return (.assign key value, rest)
    | _ => none

/-- The statements of a text, each on a line of its own. -/
def statementsBelow (fuel : Nat) (text : List Char) : Option (List Statement) :=
  match fuel with
  | 0 => none
  | fuel + 1 => do
    match ← skipBlanks text with
    | [] => return []
    | text =>
      let (statement, rest) ← scanStatement text
      let rest ← endLine rest
      return statement :: (← statementsBelow fuel rest)

/-- The statements of a document. A byte-order mark in front of it does not count. -/
def statements? (text : List Char) : Option (List Statement) :=
  let text :=
    match text with
    | '\ufeff' :: rest => rest
    | text => text
  statementsBelow (text.length + 1) text

end ShardKeeper.Toml
