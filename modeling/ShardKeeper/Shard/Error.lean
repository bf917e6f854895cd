import ShardKeeper.Catalog.Wait
import ShardKeeper.HashSpace
import ShardKeeper.Searcher.Retry
import ShardKeeper.Storage.Fault

/-!
# Errors of hosted shards

## Main definitions

* `ShardError` — why something could not be done with a shard
* `ShardError.message?` — its text, unless it is about stored data
-/

namespace ShardKeeper

/-- Why something could not be done with a shard. -/
inductive ShardError where
  /-- A table of so many shards has no shard with this index. -/
  | noSuchShard (count index : Nat)
  | alreadyHosted (shard : ShardId)
  | closed (shard : ShardId)
  | failed (shard : ShardId) (reason : String)
  /-- The engine did not come to serve the shard. -/
  | notServed (failure : CatalogWait.Failure)
  | storage (fault : StorageFault)
  | call (error : CallError)
deriving DecidableEq

/-- The text of an error, unless it is about stored data. -/
def ShardError.message? : ShardError → Option String
  | .noSuchShard count index =>
    some ("shard " ++ toString index ++ " is outside a layout of " ++ toString count ++ " shards")
  | .alreadyHosted shard => some ("engine for shard " ++ shard.text ++ " is already registered")
  | .closed shard => some ("engine for shard " ++ shard.text ++ " is closed")
  | .failed shard reason => some ("engine for shard " ++ shard.text ++ " has failed: " ++ reason)
  | .notServed failure => some failure.message
  | .storage _ => none
  | .call error => some error.message

end ShardKeeper
