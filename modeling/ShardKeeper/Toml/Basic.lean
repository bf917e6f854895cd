/-!
# TOML documents

## Main definitions

* `Toml` — a value
* `Toml.Statement` — a line of a document: an assignment or a header
-/

namespace ShardKeeper

/-- A TOML value. Dates and times, and numbers that are no integers, are kept only as far as anybody
asks for them. -/
inductive Toml where
  | string (s : String)
  | integer (n : Int)
  /-- A number with a fraction or an exponent; `finite` unless its size is beyond double
  precision. -/
  | float (finite : Bool)
  | boolean (b : Bool)
  | moment
  | array (items : List Toml)
  | table (entries : List (String × Toml))
deriving Inhabited

namespace Toml

/-- The names from a table down to one of its parts. -/
abbrev Key := List String

/-- A value as it is written: an inline table is still a list of assignments. -/
inductive Literal where
  | scalar (value : Toml)
  | array (items : List Literal)
  | inlineTable (assignments : List (Key × Literal))
deriving Inhabited

/-- A line of a document. -/
inductive Statement where
  /-- A key in the current table gets a value. -/
  | assign (key : Key) (value : Literal)
  /-- The current table becomes the one with this key. -/
  | header (key : Key)
  /-- The current table becomes a new one at the end of the array with this key. -/
  | arrayHeader (key : Key)

end Toml

end ShardKeeper
