import ShardKeeper.Durability.Ledger
import ShardKeeper.Searcher.DocumentChange
import ShardKeeper.Shard.Error
import ShardKeeper.Task.Token

/-!
# Hosted shards

What the node knows of a shard that it has opened.

## Main definitions

* `HostedShard` — the shard's slice, its commit ledger, its counters and its state
* `HostedShard.refusal?` — why the shard takes no more operations
* `HostedShard.fail`, `HostedShard.close` — the two ways in which it stops to take them
* `HostedShard.flush` — stores the commit point

The first reason for a failure stays, and a closed shard stays closed.
-/

namespace ShardKeeper

/-- Where the commit point of a shard is stored. -/
inductive RecordPlace where
  /-- In the node's memory. -/
  | memory
  | file (path : Path)
deriving DecidableEq

/-- Where the local checkpoint of a shard comes from. -/
inductive CheckpointSource where
  /-- The node is told. -/
  | told
  | file (path : Path)
deriving DecidableEq

/-- What is reported about the documents of a shard. -/
structure Statistics where
  indexed : Nat
  deleted : Nat
  /-- The size of the table's data in bytes, if it could be measured. -/
  size : Option Nat
  commitTimestamp : Int
deriving DecidableEq

/-- A shard that the node has opened. -/
structure HostedShard where
  id : ShardId
  slice : HashSlice
  ledger : CommitLedger
  record : RecordPlace
  source : CheckpointSource
  token : Token
  /-- Why the shard has failed, if it has. -/
  failure : Option String
  isClosed : Bool
  /-- How many documents were indexed. -/
  indexed : Nat
  /-- How many documents were deleted. -/
  deleted : Nat
  /-- The statistics reported last, and the time on the machine's clock, in nanoseconds. -/
  reported : Option (Statistics × Int)
  /-- How long statistics may be reported again, whatever has changed. -/
  statisticsAge : Duration
  /-- Whether somebody is refreshing the shard. -/
  isRefreshing : Bool
deriving DecidableEq

namespace HostedShard

/-- A shard that was opened just now. -/
def opened (id : ShardId) (slice : HashSlice) (ledger : CommitLedger) (record : RecordPlace)
    (source : CheckpointSource) (token : Token) (statisticsAge : Duration) : HostedShard :=
  { id, slice, ledger, record, source, token, statisticsAge, failure := none, isClosed := false,
    indexed := 0, deleted := 0, reported := none, isRefreshing := false }

/-- Why the shard takes no more operations, if it does not. -/
def refusal? (s : HostedShard) : Option ShardError :=
  if s.isClosed then some (.closed s.id) else s.failure.map (.failed s.id)

/-- The shard with a reason for its failure, unless it has failed before. -/
def fail (s : HostedShard) (reason : String) : HostedShard :=
  { s with failure := s.failure.or (some reason) }

/-- The first reason stays. -/
theorem failure_fail (s : HostedShard) (reason : String) :
    (s.fail reason).failure = some (s.failure.getD reason) := by
  unfold fail
  cases s.failure <;> rfl

/-- The shard without any further operation. -/
def close (s : HostedShard) : HostedShard := { s with isClosed := true }

/-- Stores the commit point with `save` if it is newer than the stored one, or in any case when
forced. Returns whether anything was stored. -/
def flush {σ : Type} (s : HostedShard) (force : Bool) (store : σ)
    (save : σ → CommitPoint → σ × Except StorageFault Unit) :
    HostedShard × σ × Except StorageFault Bool :=
  let (ledger, store, result) := s.ledger.flush force store save
  ({ s with ledger }, store, result)

end HostedShard

end ShardKeeper
