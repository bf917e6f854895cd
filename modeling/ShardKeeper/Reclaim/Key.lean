import ShardKeeper.Catalog.Condition
import ShardKeeper.Storage.Layout

/-!
# What can be reclaimed

The search engine's data of a table, or of one partition of it, is removed once the engine has let
go of it.

## Main definitions

* `ReclaimKey` — the data to be removed
* `ReclaimKey.path` — where it is
* `ReclaimKey.condition` — what the catalog has to show before it is removed
-/

namespace ShardKeeper

/-- Data that can be reclaimed. -/
inductive ReclaimKey where
  | table (name : String)
  | shard (table : String) (slice : HashSlice)
deriving DecidableEq, Inhabited

namespace ReclaimKey

/-- The text of a key. -/
def text : ReclaimKey → String
  | .table name => "table " ++ name
  | .shard name slice => "shard " ++ name ++ "/" ++ slice.partitionId

/-- The directory to be removed. -/
def path (layout : Layout) : ReclaimKey → Path
  | .table name => layout.tableDirectory name
  | .shard name slice => layout.partitionDirectory name slice

/-- What has to hold of the catalog when the directory is removed. -/
def condition : ReclaimKey → CatalogCondition
  | .table name => .absence name none
  | .shard name slice => .absence name (some slice.partitionId)

end ReclaimKey

end ShardKeeper
