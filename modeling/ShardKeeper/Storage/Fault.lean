import ShardKeeper.Path

/-!
# Faults of stored data

## Main definitions

* `StorageFault` — a path whose content could not be reached, or could not be understood
-/

namespace ShardKeeper

/-- What went wrong with stored data, and where. -/
inductive StorageFault where
  /-- The path could not be read or changed. -/
  | inaccessible (path : Path)
  /-- The file at the path holds something else than it should. -/
  | malformed (path : Path)
deriving DecidableEq

end ShardKeeper
