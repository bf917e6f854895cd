import ShardKeeper.Json.Basic
import ShardKeeper.Text.Decimal
import ShardKeeper.Text.Double

/-!
# Records in JSON

How values of fixed shape are taken from a document.

## Main definitions

* `Json.fields?` — the fields of a record, by name from an object or by position from an array
* `Json.Field` — a field that may be missing, and ways to read one
* `Json.entries?` — the members of a map, the last one of each name
* `Json.isGeneral` — the documents that can be read as a whole, whatever their shape

## Design notes

A record may name members that nobody knows, and their values only have to be well formed. A known
name may not be repeated, and no name may be ill formed. A record written as an array gives its
fields in the order of their declaration; the last ones may be missing, but there may not be more.
-/

namespace ShardKeeper.Json

/-! ### Single values -/

/-- A boolean or nothing. -/
def bool? : Json → Option Bool
  | .bool b => some b
  | _ => none

/-- A string that spells a text. -/
def string? : Json → Option String
  | .string s => s
  | _ => none

/-- An integer within bounds, both included. -/
def integer? (least greatest : Int) : Json → Option Int
  | .integer n => if least ≤ n && n ≤ greatest then some n else none
  | _ => none

/-- An integer of 64 bits with a sign. -/
def int64? : Json → Option Int := integer? Decimal.minInt64 Decimal.maxInt64

/-- An integer of 32 bits without a sign. -/
def nat32? (v : Json) : Option Nat := (integer? 0 4294967295 v).map Int.toNat

/-- An integer of 64 bits without a sign. -/
def nat64? (v : Json) : Option Nat := (integer? 0 18446744073709551615 v).map Int.toNat

/-- The items of an array, each read by `read`. -/
def list? {α : Type} (read : Json → Option α) : Json → Option (List α)
  | .array items => items.mapM read
  | _ => none

/-- `null`, or a value that `read` accepts. -/
def nullable? {α : Type} (read : Json → Option α) : Json → Option (Option α)
  | .null => some none
  | v => (read v).map some

/-! ### Records -/

/-- A field of a record: its value if it is present. -/
abbrev Field := Option Json

/-- The value of a field that has to be present. -/
def Field.required {α : Type} (read : Json → Option α) (field : Field) : Option α :=
  field.bind read

/-- The value of a field, or `default` when it is missing. -/
def Field.orElse {α : Type} (default : α) (read : Json → Option α) : Field → Option α
  | none => some default
  | some v => read v

/-- The value of the only member called `name`; nothing at all when the name is repeated. -/
def field? (name : String) (members : List (Option String × Json)) : Option Field :=
  match members.filter fun m => m.1 = some name with
  | [] => some none
  | [m] => some (some m.2)
  | _ => none

/-- The fields of a record with the given names. -/
def fields? (names : List String) : Json → Option (List Field)
  | .object members =>
    if members.all fun m => m.1.isSome then names.mapM fun name => field? name members else none
  | .array items =>
    if items.length ≤ names.length then
      some (items.map some ++ List.replicate (names.length - items.length) none)
    else none
  | _ => none

/-! ### Maps -/

/-- Removes from a list of pairs those whose key comes again later. -/
def lastOfEach {κ α : Type} [BEq κ] : List (κ × α) → List (κ × α)
  | [] => []
  | (k, v) :: rest =>
    if rest.any fun m => m.1 == k then lastOfEach rest else (k, v) :: lastOfEach rest

/-- The members of a map, each value read by `read`; of a repeated name the last one counts, but
all of them have to be readable. -/
def entries? {α : Type} (read : Json → Option α) : Json → Option (List (String × α))
  | .object members => do
    let pairs ← members.mapM fun m => do return (← m.1, ← read m.2)
    return lastOfEach pairs
  | _ => none

/-! ### Documents of any shape -/

mutual

/-- Whether a document can be read as a whole, whatever its shape: strings and names spell text,
numbers are within the range of double precision, and containers nest less than `limit` deep. -/
def isGeneralBelow (limit : Nat) : Json → Bool
  | .null => true
  | .bool _ => true
  | .integer _ => true
  | .decimal _ coefficient exponent => Double.isFiniteProduct coefficient exponent
  | .string s => s.isSome
  | .array items =>
    match limit with
    | 0 | 1 => false
    | limit + 1 => areGeneralBelow limit items
  | .object members =>
    match limit with
    | 0 | 1 => false
    | limit + 1 => membersAreGeneralBelow limit members

/-- `isGeneralBelow` of every item. -/
def areGeneralBelow (limit : Nat) : List Json → Bool
  | [] => true
  | v :: rest => isGeneralBelow limit v && areGeneralBelow limit rest

/-- `isGeneralBelow` of every member's value, where every name spells a text. -/
def membersAreGeneralBelow (limit : Nat) : List (Option String × Json) → Bool
  | [] => true
  | (k, v) :: rest => k.isSome && isGeneralBelow limit v && membersAreGeneralBelow limit rest

end

/-- The depth of nesting at which a document of any shape is refused. -/
def nestingLimit : Nat := 128

/-- Whether a document can be read as a whole, whatever its shape. -/
def isGeneral (v : Json) : Bool := isGeneralBelow nestingLimit v

end ShardKeeper.Json
