import ShardKeeper.Json.Reader
import ShardKeeper.Json.Record
import ShardKeeper.Text.Quoted

/-!
# The engine's catalog

The search engine publishes which partitions it serves: for every table its generations, and for
every generation its partitions. The generation with the largest number counts.

## Main definitions

* `Catalog` — one published catalog
* `Catalog.latest?` — the generation of a table that counts
* `Catalog.ofDocument`, `Catalog.ofText` — the catalog that a document describes
* `CatalogError` — why a document describes none

## Design notes

A document is read as a whole before its shape is looked at, so of a repeated name the last member
counts at every level, whatever the earlier ones hold.
-/

namespace ShardKeeper

/-- The partitions that one generation of a table serves. -/
structure Generation where
  partitions : List String
deriving DecidableEq

/-- The tables that the engine serves, each with its generations. -/
structure Catalog where
  tables : List (String × List (Nat × Generation))
deriving DecidableEq

/-- Why a document describes no catalog. -/
inductive CatalogError where
  /-- It is no document of the right shape. -/
  | malformed
  /-- A generation of the table is named by something else than digits. -/
  | notANumber (table id : String)
  /-- A generation of the table has a number of more than 64 bits. -/
  | numberTooLarge (table id : String)
  /-- Two generations of the table have the same number. -/
  | repeatedNumber (table : String) (number : Nat)
deriving DecidableEq

/-- The text of the error, where the document is to blame for more than its shape. -/
def CatalogError.message? : CatalogError → Option String
  | .malformed => none
  | .notANumber table id =>
    some ("invalid target state: table " ++ table ++ " has non-numeric generation id "
      ++ Text.quote id)
  | .numberTooLarge table id =>
    some ("invalid target state: table " ++ table ++ " generation id " ++ id ++ " out of range")
  | .repeatedNumber table number =>
    some ("invalid target state: table " ++ table ++ " has two generations numbered "
      ++ toString number)

/-- Whether the generation serves a partition. -/
def Generation.serves (g : Generation) (partition : String) : Bool :=
  g.partitions.contains partition

namespace Catalog

/-- The entry with the largest number. -/
def greatest? {α : Type} : List (Nat × α) → Option (Nat × α)
  | [] => none
  | e :: rest =>
    match greatest? rest with
    | none => some e
    | some f => if e.1 ≤ f.1 then some f else some e

/-- Whether the catalog names a table. -/
def hasTable (c : Catalog) (table : String) : Bool := c.tables.any fun t => t.1 == table

/-- The generation of a table with the largest number, and that number. -/
def latest? (c : Catalog) (table : String) : Option (Nat × Generation) :=
  (c.tables.lookup table).bind greatest?

/-! ### Reading a catalog -/

/-- The number of a generation: digits only, at most 64 bits. -/
def generationNumber (table id : String) : Except CatalogError Nat :=
  match Decimal.nat? id.toList with
  | none => .error (.notANumber table id)
  | some n => if n < Nat.pow 2 64 then .ok n else .error (.numberTooLarge table id)

/-- The generations of a table, numbered. -/
def numberGenerations (table : String) (seen : List (Nat × Generation)) :
    List (String × Generation) → Except CatalogError (List (Nat × Generation))
  | [] => .ok seen
  | (id, generation) :: rest => do
    let number ← generationNumber table id
    if seen.any fun g => g.1 == number then throw (.repeatedNumber table number)
    else numberGenerations table (seen ++ [(number, generation)]) rest

/-- The generation that a document describes. -/
def generationOf? (v : Json) : Option Generation := do
  match ← v.fields? ["partitions"] with
  | [partitions] =>
    let entries ← partitions.orElse [] (Json.entries? some)
    return ⟨entries.map Prod.fst⟩
  | _ => none

mutual

/-- The document with only the last of the members of one name, at every level. -/
def collapse : Json → Json
  | .array items => .array (collapseItems items)
  | .object members => .object (Json.lastOfEach (collapseMembers members))
  | v => v

/-- `collapse` of every item. -/
def collapseItems : List Json → List Json
  | [] => []
  | v :: rest => collapse v :: collapseItems rest

/-- `collapse` of every member. -/
def collapseMembers : List (Option String × Json) → List (Option String × Json)
  | [] => []
  | (k, v) :: rest => (k, collapse v) :: collapseMembers rest

end

/-- The catalog that a document describes. -/
def ofDocument (v : Json) : Except CatalogError Catalog := do
  match Json.entries? (Json.entries? generationOf?) (collapse v) with
  | none => throw .malformed
  | some tables =>
    let numbered ← tables.mapM fun (table, generations) => do
      return (table, ← numberGenerations table [] generations)
    return ⟨numbered⟩

/-- The catalog that the text of a document describes. -/
def ofBytes (bytes : Bytes) : Except CatalogError Catalog :=
  match Json.ofBytes? bytes with
  | some v => if v.isGeneral then ofDocument v else .error .malformed
  | none => .error .malformed

/-- The catalog that the text of a document describes. -/
def ofText (text : String) : Except CatalogError Catalog := ofBytes (Utf8.ofString text)

end Catalog

end ShardKeeper
