import ShardKeeper.Path
import ShardKeeper.HashSpace

/-!
# Where things are kept

## Main definitions

* `Layout.tableDirectory`, `Layout.partitionDirectory` — where the search engine keeps a table and
  one of its partitions
* `Layout.recordPath` — where the node keeps the commit record of a shard
-/

namespace ShardKeeper

/-- The directories of the search engine's data, below one root. -/
structure Layout where
  root : Path
deriving DecidableEq, Inhabited

namespace Layout

/-- The directory of the only generation that the engine writes to. -/
def generationName : String := "generation_0"

/-- The directory of a table. -/
def tableDirectory (layout : Layout) (table : String) : Path := layout.root.join table

/-- The directory of one partition of a table. -/
def partitionDirectory (layout : Layout) (table : String) (slice : HashSlice) : Path :=
  ((layout.tableDirectory table).join generationName).join slice.directoryName

/-- The file with the commit record of a shard, in the directory `directory`. -/
def recordPath (directory : Path) (shard : ShardId) : Path :=
  directory.join (shard.table ++ "_" ++ toString shard.index ++ ".json")

end Layout

end ShardKeeper
