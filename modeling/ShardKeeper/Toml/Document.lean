import ShardKeeper.Toml.Statement

/-!
# Assembling a TOML document

The statements of a document fill one tree of tables. A table may be named on the way to another one
before it gets a header of its own, but nothing may be defined twice.

## Main definitions

* `Toml.Node`, `Toml.Node.update` — the tree, and a change at one of its places
* `Toml.ofText?` — the table that a whole text describes
-/

namespace ShardKeeper.Toml

/-- How a table came about. -/
inductive Origin where
  /-- By a header, or as the top of the document. -/
  | header
  /-- On the way to a table with a header. -/
  | passage
  /-- On the way through a dotted key. -/
  | dotted
  /-- Written inline, with nothing to be added. -/
  | inline
deriving DecidableEq

/-- A part of a document under construction. -/
inductive Node where
  | value (v : Toml)
  | table (origin : Origin) (entries : List (String × Node))
  /-- An array of tables with headers, each of them given by its entries. -/
  | tables (items : List (List (String × Node)))

/-- The entries of a table under construction. -/
abbrev Entries := List (String × Node)

/-- The entries with a name bound anew, at its old rank if it was bound before. -/
def Entries.bind (entries : Entries) (name : String) (node : Node) : Entries :=
  if (entries.lookup name).isSome then
    entries.map fun e => if e.1 == name then (name, node) else e
  else entries ++ [(name, node)]

/-- Changes the entries of the table at `key`, creating tables on the way. Along the dotted key of
an assignment, a table with a header may not be entered, and one that was only on the way to others
counts as made by dotted keys from then on. -/
def Entries.update (change : Origin → Entries → Option Entries) (dotted : Bool) (origin : Origin)
    (entries : Entries) : Key → Option Entries
  | [] => change origin entries
  | name :: rest =>
    match entries.lookup name with
    | none => do
      let fresh := if dotted then .dotted else .passage
      let inner ← Entries.update change dotted fresh [] rest
      return entries.bind name (.table fresh inner)
    | some (.table inner content) =>
      if inner = .inline || (dotted && inner = .header) then none
      else do
        let reached := if dotted then .dotted else inner
        let content ← Entries.update change dotted reached content rest
        return entries.bind name (.table reached content)
    | some (.tables items) =>
      match items.getLast? with
      | none => none
      | some last => do
        let last ← Entries.update change dotted .header last rest
        return entries.bind name (.tables (items.dropLast ++ [last]))
    | some (.value _) => none

/-- Gives a name that is not bound yet a value. -/
def Entries.define (name : String) (node : Node) (entries : Entries) : Option Entries :=
  if (entries.lookup name).isSome then none else some (entries ++ [(name, node)])

/-- Carries out an assignment in a table: the names before the last one lead through tables made by
dotted keys alone. -/
def Entries.assign (origin : Origin) (entries : Entries) (key : Key) (node : Node) :
    Option Entries :=
  match key.getLast? with
  | none => none
  | some name =>
    let way := key.dropLast
    Entries.update (fun reached entries =>
      if (reached == .dotted) == way.isEmpty then none else Entries.define name node entries)
      true origin entries way

mutual

/-- The part of a document that a value written in it becomes. -/
def Literal.toNode : Literal → Option Node
  | .scalar v => some (.value v)
  | .array items => (Literal.values items).map fun vs => .value (.array vs)
  | .inlineTable assignments =>
    (Literal.fill assignments []).map fun entries => .table .inline entries

/-- The values of the items of an array. -/
def Literal.values : List Literal → Option (List Toml)
  | [] => some []
  | item :: rest => do
    let node ← Literal.toNode item
    return Node.toToml node :: (← Literal.values rest)

/-- The entries of a table after some assignments. -/
def Literal.fill : List (Key × Literal) → Entries → Option Entries
  | [], entries => some entries
  | (key, value) :: rest, entries => do
    let node ← Literal.toNode value
    Literal.fill rest (← entries.assign .inline key node)

/-- The value of a finished part of a document. -/
def Node.toToml : Node → Toml
  | .value v => v
  | .table _ entries => .table (Node.toEntries entries)
  | .tables items => .array (Node.toItems items)

/-- The values of the entries of a table. -/
def Node.toEntries : List (String × Node) → List (String × Toml)
  | [] => []
  | (name, node) :: rest => (name, Node.toToml node) :: Node.toEntries rest

/-- The values of an array of tables. -/
def Node.toItems : List (List (String × Node)) → List Toml
  | [] => []
  | entries :: rest => .table (Node.toEntries entries) :: Node.toItems rest

end

/-- The top table so far, and the table that assignments go to. -/
structure Assembly where
  top : Entries
  current : Key

/-- The document after one more statement. -/
def Assembly.step (a : Assembly) : Statement → Option Assembly
  | .assign key value => do
    let node ← value.toNode
    let top ← Entries.update (fun origin entries => entries.assign origin key node) false .header
      a.top a.current
    return { a with top }
  | .header key => do
    let name ← key.getLast?
    let top ← Entries.update (fun _ entries =>
      match entries.lookup name with
      | none => some (entries ++ [(name, .table .header [])])
      | some (.table .passage inner) => some (entries.bind name (.table .header inner))
      | _ => none) false .header a.top key.dropLast
    return ⟨top, key⟩
  | .arrayHeader key => do
    let name ← key.getLast?
    let top ← Entries.update (fun _ entries =>
      match entries.lookup name with
      | none => some (entries ++ [(name, .tables [[]])])
      | some (.tables items) => some (entries.bind name (.tables (items ++ [[]])))
      | _ => none) false .header a.top key.dropLast
    return ⟨top, key⟩

/-- The entries of the table that a text describes. -/
def ofText? (text : List Char) : Option (List (String × Toml)) := do
  let a ← (← statements? text).foldlM Assembly.step ⟨[], []⟩
  return Node.toEntries a.top

end ShardKeeper.Toml
