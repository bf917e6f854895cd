import ShardKeeper.Json.Record

/-!
# Lenient access to JSON

How a document is read whose shape is known and need not be checked.

## Main definitions

* `Json.member` — a member of an object, `null` when it is missing
* `Json.asString`, `Json.asInt`, `Json.asNat`, `Json.asBool`, `Json.items`, `Json.members` — a
  document as a value of a kind, with a default for every other kind
-/

namespace ShardKeeper.Json

/-- The last member of an object with a name; `null` when it is missing. -/
def member (v : Json) (name : String) : Json :=
  match v with
  | .object members => (members.reverse.lookup (some name)).getD .null
  | _ => .null

/-- The items of an array. -/
def items : Json → List Json
  | .array items => items
  | _ => []

/-- The members of an object. -/
def members : Json → List (String × Json)
  | .object members => members.filterMap fun m => m.1.map fun name => (name, m.2)
  | _ => []

/-- Whether a document is `null`. -/
def isNull : Json → Bool
  | .null => true
  | _ => false

/-- A document as a text. -/
def asString (v : Json) : String := v.string?.getD ""

/-- A document as an integer. -/
def asInt (v : Json) (default : Int := 0) : Int :=
  match v with
  | .integer n => n
  | _ => default

/-- A document as a natural number. -/
def asNat (v : Json) (default : Nat := 0) : Nat :=
  match v with
  | .integer n => n.toNat
  | _ => default

/-- A document as a boolean. -/
def asBool (v : Json) : Bool := v.bool?.getD false

/-- A value as a document, or `null` when there is none. -/
def ofOption {α : Type} (encode : α → Json) (v : Option α) : Json := (v.map encode).getD .null

end ShardKeeper.Json
