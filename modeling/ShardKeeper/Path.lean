/-!
# File paths

Paths are plain text with `/` between components; nothing is normalized when they are put together.

## Main definitions

* `Path.join` — a path below another one
* `Path.steps` — the names a path goes through, `.` and `..` among them
* `Path.parent?`, `Path.fileName?` — all but the last component, and the last one
* `Path.trimmed` — a path without the parts at its ends that lead nowhere
* `Path.replaceExtension` — the same path with another extension

## Design notes

A part that is absolute replaces everything in front of it, and an empty part leaves a separator at
the end. Both follow from joining texts, so names are taken as they come.

Separators and `.` at the end of a path do not change what its last component is. They do change
what it may lead to, which is a matter of looking it up.
-/

namespace ShardKeeper

/-- A file path. -/
structure Path where
  text : String
deriving DecidableEq, Inhabited

namespace Path

instance : ToString Path := ⟨Path.text⟩

/-- The character between two components. -/
def separator : Char := '/'

/-- Whether a path starts at the root of the file system. -/
def isAbsolute (p : Path) : Bool := p.text.toList.head? = some separator

/-- Whether a path ends in a separator. -/
def isOpen (p : Path) : Bool := p.text.toList.getLast? = some separator

/-- The characters of `part` below `base`. -/
def joinChars (base part : List Char) : List Char :=
  if part.head? = some separator then part
  else if base.isEmpty || base.getLast? = some separator then base ++ part
  else base ++ separator :: part

/-- The path `part` below `base`. -/
def join (base : Path) (part : String) : Path :=
  ⟨String.ofList (joinChars base.text.toList part.toList)⟩

/-! ### Components -/

/-- The runs of characters between separators. -/
def splitChars : List Char → List (List Char)
  | [] => [[]]
  | c :: rest =>
    if c = separator then [] :: splitChars rest
    else
      match splitChars rest with
      | [] => [[c]]
      | word :: words => (c :: word) :: words

/-- The components of a path in order, names as well as `.` and `..`. Separators in a row count as
one. -/
def steps (p : Path) : List String :=
  ((splitChars p.text.toList).filter fun w => !w.isEmpty).map String.ofList

/-- A text without the separators and `.` at its front. -/
def dropIdle : List Char → List Char
  | '/' :: rest => dropIdle rest
  | '.' :: '/' :: rest => dropIdle rest
  | ['.'] => []
  | text => text

/-- A text without the separators and `.` at its end. -/
def dropIdleEnd (text : List Char) : List Char := (dropIdle text.reverse).reverse

/-- The path without separators and `.` at either end. An absolute path stays as it is. -/
def trimmed (p : Path) : Path :=
  if p.isAbsolute then p else ⟨String.ofList (dropIdleEnd (dropIdle p.text.toList))⟩

/-- The last component of a text, with the text in front of it. Separators and `.` at the end do
not count. -/
def splitLast (text : List Char) : List Char × List Char :=
  let backward := (dropIdleEnd text).reverse
  ((backward.dropWhile (· ≠ separator)).reverse, (backward.takeWhile (· ≠ separator)).reverse)

/-- The name that a path ends in, unless it ends in `..` or has none. -/
def fileName? (p : Path) : Option String :=
  match (splitLast p.text.toList).2 with
  | [] | ['.', '.'] => none
  | name => some (String.ofList name)

/-- The path without its last component, or nothing when it has none. -/
def parent? (p : Path) : Option Path :=
  let (front, name) := splitLast p.text.toList
  if name.isEmpty then none
  else
    let trimmed := dropIdleEnd front
    some ⟨String.ofList (if trimmed.isEmpty && p.isAbsolute then [separator] else trimmed)⟩

/-! ### Extensions -/

/-- A name up to its last dot, or all of it when it has no dot but a leading one. -/
def stem (name : List Char) : List Char :=
  match name.reverse.span (· ≠ '.') with
  | (_, []) => name
  | (_, _ :: front) => if front.isEmpty then name else front.reverse

/-- The path whose last component has the extension `extension` in place of its own. The old one is
taken off first: of a name such as `..x` this leaves `..`, which is no name and gets no extension,
unless something stands behind the name. -/
def replaceExtension (p : Path) (extension : String) : Path :=
  match p.fileName? with
  | none => p
  | some name =>
    let (front, _) := splitLast p.text.toList
    let stem := stem name.toList
    if stem = ['.'] && dropIdleEnd p.text.toList = p.text.toList then
      ⟨String.ofList (front ++ ['.', '.'])⟩
    else ⟨String.ofList (front ++ stem ++ '.' :: extension.toList)⟩

/-! ### Places -/

/-- The names from the root of a file system down to one of its places. -/
abbrev Place := List String

/-- Whether a place lies in the tree below another one, the other one included. -/
def Place.within (inner outer : Place) : Bool := outer.isPrefixOf inner

/-- The number of bytes in the absolute path of a place. -/
def Place.width (place : Place) : Nat :=
  place.foldl (fun total name => total + (name.utf8ByteSize + 1)) 0

end Path

end ShardKeeper
