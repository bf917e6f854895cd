import ShardKeeper.Shard.Hosted
import ShardKeeper.Timed

/-!
# Refreshing a hosted shard

A refresh reads the local checkpoint, the machine's clock and the newest version marker, in this
order, and enters them into the ledger.

## Main definitions

* `Reading` — what the three show at a moment
* `RefreshPhase`, `RefreshPhase.next?` — a refresh step by step
* `LoopPhase` — a task that refreshes again and again, and stores what is new

## Design notes

The checkpoint is read before the clock, so a sample never claims more than was durable at its time.
A shard is refreshed by one at a time, from before the first reading to after the entry, so samples
are entered in the order in which they were taken.
-/

namespace ShardKeeper

/-- What a refresh would read at a moment. -/
structure Reading where
  checkpoint : Int
  /-- The time on the machine's clock, in milliseconds since 1970. -/
  clock : Int
  marker : Except StorageFault (Option VersionMarker)

/-- Where a refresh stands. -/
inductive RefreshPhase where
  /-- It is about to look whether the shard takes operations. -/
  | arriving
  /-- It waits until nobody else refreshes the shard. -/
  | queued
  /-- It is about to read the local checkpoint. -/
  | sampling
  /-- It is about to read the clock. -/
  | timing (checkpoint : Int)
  /-- It is about to read the version marker. -/
  | marking (checkpoint clock : Int)
  /-- It is about to enter what it has read. -/
  | entering (checkpoint clock : Int) (marker : Except StorageFault (Option VersionMarker))
  /-- It has ended, and tells whether the commit point changed. -/
  | done (result : Except StorageFault Bool)

/-- The result of a refresh that has ended. -/
def RefreshPhase.result? : RefreshPhase → Option (Except StorageFault Bool)
  | .done result => some result
  | _ => none

/-- The next step of a refresh; nothing when it waits or has ended. -/
def RefreshPhase.next? (phase : RefreshPhase) (s : HostedShard) (reading : Reading) :
    Option (HostedShard × RefreshPhase) :=
  match phase with
  | .arriving => some (s, if s.refusal?.isSome then .done (.ok false) else .queued)
  | .queued => if s.isRefreshing then none else some ({ s with isRefreshing := true }, .sampling)
  | .sampling => some (s, .timing reading.checkpoint)
  | .timing checkpoint => some (s, .marking checkpoint reading.clock)
  | .marking checkpoint clock => some (s, .entering checkpoint clock reading.marker)
  | .entering checkpoint clock marker =>
    let s := { s with isRefreshing := false }
    match marker with
    | .error fault => some (s, .done (.error fault))
    | .ok marker =>
      let (ledger, changed) := s.ledger.refresh clock checkpoint marker
      some ({ s with ledger }, .done (.ok changed))
  | .done _ => none

/-! ### Refreshing again and again -/

/-- Where a task stands that refreshes a shard again and again. -/
inductive LoopPhase where
  /-- It has not begun. -/
  | fresh
  | waiting (ticker : Ticker)
  | refreshing (ticker : Ticker) (refresh : RefreshPhase)
  /-- It is about to store the commit point if that is newer than the stored one. -/
  | flushing (ticker : Ticker)
  /-- It was cancelled, or could not begin. -/
  | ended

/-- The instant such a task waits for. -/
def LoopPhase.due? : LoopPhase → Option Instant
  | .waiting ticker => some ticker.next
  | _ => none

/-- The next step of such a task while it waits. -/
def LoopPhase.wake? (ticker : Ticker) (now : Instant) (cancelled : Bool) : Option LoopPhase :=
  if cancelled then some .ended
  else if ticker.isDue now then some (.refreshing (ticker.heard now) .arriving)
  else none

/-- Where such a task stands after a step of a refresh. One that could not read the marker is not
followed by a flush. -/
def LoopPhase.afterRefresh (ticker : Ticker) (refresh : RefreshPhase) : LoopPhase :=
  match refresh with
  | .done (.ok _) => .flushing ticker
  | .done (.error _) => .waiting ticker
  | refresh => .refreshing ticker refresh

end ShardKeeper
