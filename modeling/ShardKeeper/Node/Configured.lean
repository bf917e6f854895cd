import ShardKeeper.Node.Operation
import ShardKeeper.Settings.Basic

/-!
# A node with settings

## Main definitions

* `Node.configured` — the node that the settings describe
* `Settings.opening` — how such a node opens a shard
-/

namespace ShardKeeper

/-- The node that the settings describe, at its start. -/
def Node.configured (s : Settings) (files : FileTree) : Node :=
  .starting ⟨s.places.runtimeRoot⟩ files s.pollSettings s.backoff s.reclaim

namespace Settings

/-- How long the statistics of a shard may be reported again. -/
def statisticsAge : Duration := .ofSeconds 1

/-- How a shard is opened and hosted. -/
def opening (s : Settings) (id : ShardId) (count : Nat) (source : CheckpointSource) :
    OpeningPlan where
  id := id
  count := count
  history := .empty s.checkpoints.maxSamples s.maxAgeMillis
  record := .file (Layout.recordPath s.places.commitDirectory id)
  source := source
  statisticsAge := statisticsAge
  refreshing := some (.ofMillis s.refresh.interval)

end Settings

end ShardKeeper
