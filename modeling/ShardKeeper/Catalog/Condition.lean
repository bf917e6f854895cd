import ShardKeeper.Catalog.Basic

/-!
# Conditions on the catalog

What the node waits for: that the engine serves a partition, or that it has let go of a partition or
of a whole table.

## Main definitions

* `CatalogCondition` — the condition
* `CatalogCondition.holds` — whether it holds of the latest catalog; without a catalog none does
-/

namespace ShardKeeper

/-- A condition on the engine's catalog. -/
inductive CatalogCondition where
  /-- The latest generation of the table serves the partition. -/
  | presence (table partition : String)
  /-- The latest generation of the table does not serve the partition, or there is none. Without a
  partition, the table is not named at all. -/
  | absence (table : String) (partition : Option String)
deriving DecidableEq

namespace CatalogCondition

/-- The text of a condition. -/
def text : CatalogCondition → String
  | .presence table partition => "presence of " ++ table ++ "/" ++ partition
  | .absence table none => "absence of " ++ table
  | .absence table (some partition) => "absence of " ++ table ++ "/" ++ partition

/-- Whether the latest generation of a table serves a partition. -/
def served (c : Catalog) (table partition : String) : Bool :=
  (c.latest? table).any fun g => g.2.serves partition

/-- Whether the condition holds of the latest catalog, if one was received. -/
def holds (condition : CatalogCondition) : Option Catalog → Bool
  | none => false
  | some c =>
    match condition with
    | .presence table partition => served c table partition
    | .absence table none => !c.hasTable table
    | .absence table (some partition) => !served c table partition

end CatalogCondition

end ShardKeeper
