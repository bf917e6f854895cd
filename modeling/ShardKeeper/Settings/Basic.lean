import ShardKeeper.Catalog.Wait
import ShardKeeper.HashSpace
import ShardKeeper.Path
import ShardKeeper.Process.Role
import ShardKeeper.Searcher.Backoff

/-!
# Settings of a node

## Main definitions

* `Settings` — everything that can be set, with the values that hold when nothing is
* `ReclaimSettings` — how often the removal of released data is tried
* `Settings.backoff`, `Settings.pollSettings`, `Settings.reclaim` — the settings of the node's parts
-/

namespace ShardKeeper

/-- How often the removal of released data is tried, and the pause between two attempts. -/
structure ReclaimSettings where
  maxAttempts : Nat
  pause : Duration
deriving DecidableEq

/-- Whether there is an attempt at all, and a pause after a failed one. -/
def ReclaimSettings.areUsable (s : ReclaimSettings) : Bool := s.maxAttempts != 0 && !s.pause.isZero

namespace Settings

/-- How the search engine is reached, and how calls to it are repeated. Times are in
milliseconds. -/
structure Searcher where
  address : String := "127.0.0.1:39300"
  requestTimeout : Nat := 10000
  baseDelay : Nat := 50
  multiplier : Nat := 2
  maxAttempts : Nat := 10
  maxDelay : Nat := 5000
deriving DecidableEq

/-- Where the engine's data and the commit records are. -/
structure Places where
  runtimeRoot : Path := ⟨"runtime"⟩
  commitDirectory : Path := ⟨"commit"⟩
deriving DecidableEq

/-- How the catalog is looked at, in milliseconds, and where it is published. -/
structure Target where
  pollInterval : Nat := 1000
  timeout : Nat := 60000
  document : Option Path := none
deriving DecidableEq

/-- How the removal of released data is tried again, with the pause in milliseconds. -/
structure Deletion where
  maxRetries : Nat := 30
  retryInterval : Nat := 1000
deriving DecidableEq

/-- How often a shard is refreshed, in milliseconds. -/
structure Refresh where
  interval : Nat := 1000
deriving DecidableEq

/-- The bounds on a shard's checkpoint history, with the age in seconds. -/
structure Checkpoints where
  maxSamples : Nat := 4096
  maxAge : Nat := 1800
deriving DecidableEq

/-- The processes that are looked after. Times are in milliseconds. -/
structure Processes where
  roles : List Role := []
  healthInterval : Nat := 5000
  stopTimeout : Nat := 10000
deriving DecidableEq

/-- A shard that the node hosts. -/
structure Shard where
  table : String
  index : Nat
  count : Nat
  /-- The file in which the document store keeps the shard's local checkpoint. -/
  checkpointFile : Path
deriving DecidableEq

/-- The shard that is meant. -/
def Shard.id (s : Shard) : ShardId := ⟨s.table, s.index⟩

end Settings

/-- Everything that can be set for a node. -/
structure Settings where
  searcher : Settings.Searcher := {}
  places : Settings.Places := {}
  target : Settings.Target := {}
  deletion : Settings.Deletion := {}
  refresh : Settings.Refresh := {}
  checkpoints : Settings.Checkpoints := {}
  processes : Settings.Processes := {}
  shards : List Settings.Shard := []
deriving DecidableEq

namespace Settings

/-- How calls to the engine are repeated. -/
def backoff (s : Settings) : BackoffPolicy :=
  ⟨.ofMillis s.searcher.baseDelay, s.searcher.multiplier, s.searcher.maxAttempts,
    .ofMillis s.searcher.maxDelay⟩

/-- How the catalog is looked at. -/
def pollSettings (s : Settings) : PollSettings :=
  ⟨.ofMillis s.target.pollInterval, .ofMillis s.target.timeout⟩

/-- How the removal of released data is tried. -/
def reclaim (s : Settings) : ReclaimSettings :=
  ⟨s.deletion.maxRetries, .ofMillis s.deletion.retryInterval⟩

/-- The greatest age of a checkpoint sample, in milliseconds. -/
def maxAgeMillis (s : Settings) : Nat := s.checkpoints.maxAge * 1000

end Settings

end ShardKeeper
