import ShardKeeper.Toml.Basic

/-!
# Records in TOML

How values of fixed shape are taken from a document.

## Main definitions

* `Toml.fields?` — the fields of a record, by name from a table or by position from an array
* `Toml.Field` — a field that may be missing, and ways to read one

A record written as an array gives its fields in the order of their declaration. The last ones may
be missing, and what comes after them is not looked at.
-/

namespace ShardKeeper.Toml

/-- A text. -/
def string? : Toml → Option String
  | .string s => some s
  | _ => none

/-- A natural number below a bound. -/
def natBelow? (bound : Nat) : Toml → Option Nat
  | .integer n => if 0 ≤ n && n < bound then some n.toNat else none
  | _ => none

/-- An integer of 32 bits without a sign. -/
def nat32? : Toml → Option Nat := natBelow? (Nat.pow 2 32)

/-- An integer of 64 bits without a sign. -/
def nat64? : Toml → Option Nat := natBelow? (Nat.pow 2 64)

/-- The items of an array, each read by `read`. -/
def list? {α : Type} (read : Toml → Option α) : Toml → Option (List α)
  | .array items => items.mapM read
  | _ => none

mutual

/-- Whether a value that nobody asks for can be passed over: integers have at most 128 bits, and
other numbers are finite. -/
def isPassable : Toml → Bool
  | .integer n => -(Nat.pow 2 127 : Nat) ≤ n && n < (Nat.pow 2 128 : Nat)
  | .float finite => finite
  | .array items => arePassable items
  | .table entries => entriesArePassable entries
  | _ => true

/-- `isPassable` of every item. -/
def arePassable : List Toml → Bool
  | [] => true
  | v :: rest => isPassable v && arePassable rest

/-- `isPassable` of every entry's value. -/
def entriesArePassable : List (String × Toml) → Bool
  | [] => true
  | (_, v) :: rest => isPassable v && entriesArePassable rest

end

/-- A field of a record: its value if it is present. -/
abbrev Field := Option Toml

/-- The value of a field that has to be present. -/
def Field.required {α : Type} (read : Toml → Option α) (field : Field) : Option α :=
  field.bind read

/-- The value of a field, or `default` when it is missing. -/
def Field.orElse {α : Type} (default : α) (read : Toml → Option α) : Field → Option α
  | none => some default
  | some v => read v

/-- The fields of a record with the given names. An `open` record may have others too. -/
def fields? (isOpen : Bool) (names : List String) : Toml → Option (List Field)
  | .table entries =>
    let others := entries.filter fun e => !names.contains e.1
    if if isOpen then others.all fun e => e.2.isPassable else others.isEmpty then
      some (names.map fun name => entries.lookup name)
    else none
  | .array items =>
    some ((items.take names.length).map some ++ List.replicate (names.length - items.length) none)
  | _ => none

end ShardKeeper.Toml
