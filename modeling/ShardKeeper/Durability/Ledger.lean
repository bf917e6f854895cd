import ShardKeeper.Durability.CommitPoint
import ShardKeeper.Durability.History
import ShardKeeper.Storage.VersionMarker

/-!
# The commit ledger of a shard

When the commit point of a shard advances, and when it has to be stored.

## Main definitions

* `CommitLedger` — the history of checkpoints, the commit point, and what was stored last
* `CommitLedger.opened` — the ledger of a shard with a stored commit point
* `CommitLedger.observe` — a version marker may advance the commit point
* `CommitLedger.refresh` — a sample and then a marker
* `CommitLedger.recordToStore?`, `CommitLedger.stored` — storing the commit point
* `CommitLedger.persist`, `CommitLedger.flush` — the same with a store that may fail

The commit point advances only to a checkpoint that is known and greater than the one before.
-/

namespace ShardKeeper

/-- The bookkeeping of one shard's commits. -/
structure CommitLedger where
  history : CheckpointHistory
  point : CommitPoint
  /-- The timestamp of the commit point stored last. -/
  storedTimestamp : Int
deriving DecidableEq

namespace CommitLedger

/-- The ledger of a shard whose stored commit point is `point`. A point with a known timestamp and
checkpoint is also the first sample. -/
def opened (history : CheckpointHistory) (point : CommitPoint) : CommitLedger :=
  let history :=
    if 0 ≤ point.timestamp && 0 ≤ point.checkpoint then
      (history.add point.timestamp point.checkpoint).1
    else history
  ⟨history, point, point.timestamp⟩

/-- The ledger with the checkpoint that was durable at a time, and whether it was taken in. -/
def sample (l : CommitLedger) (now checkpoint : Int) : CommitLedger × Bool :=
  let (history, accepted) := l.history.add now checkpoint
  ({ l with history }, accepted)

/-- The commit point that a marker leads to, if it leads to a later one. -/
def advance? (l : CommitLedger) (marker : VersionMarker) : Option CommitPoint :=
  let timestamp := marker.timestamp.getD (-1)
  match l.history.at? timestamp with
  | some checkpoint =>
    if 0 ≤ checkpoint && l.point.checkpoint < checkpoint then
      some ⟨timestamp, marker.version, checkpoint⟩
    else none
  | none => none

/-- The ledger after a look at the newest marker, and whether the commit point changed. -/
def observe (l : CommitLedger) (marker : Option VersionMarker) : CommitLedger × Bool :=
  match marker.bind l.advance? with
  | some point => ({ l with point }, true)
  | none => (l, false)

/-- The ledger after a sample and a look at the newest marker, and whether the commit point
changed. -/
def refresh (l : CommitLedger) (now checkpoint : Int) (marker : Option VersionMarker) :
    CommitLedger × Bool :=
  (l.sample now checkpoint).1.observe marker

/-- Whether the commit point is newer than the stored one. -/
def needsFlush (l : CommitLedger) : Bool :=
  0 < l.point.timestamp && l.storedTimestamp < l.point.timestamp

/-- The commit point to store, unless its checkpoint is unknown. -/
def recordToStore? (l : CommitLedger) : Option CommitPoint :=
  if l.point.checkpoint < 0 then none else some l.point

/-- The ledger after its commit point was stored. -/
def stored (l : CommitLedger) : CommitLedger := { l with storedTimestamp := l.point.timestamp }

/-- Stores the commit point with `save`, which may fail, in which case the ledger stays as it is.
Returns whether anything was stored. -/
def persist {σ ε : Type} (l : CommitLedger) (store : σ)
    (save : σ → CommitPoint → σ × Except ε Unit) : CommitLedger × σ × Except ε Bool :=
  match l.recordToStore? with
  | none => (l, store, .ok false)
  | some point =>
    match save store point with
    | (store, .ok ()) => (l.stored, store, .ok true)
    | (store, .error e) => (l, store, .error e)

/-- Stores the commit point with `save` if it is newer than the stored one, or in any case when
forced. Returns whether anything was stored. -/
def flush {σ ε : Type} (l : CommitLedger) (force : Bool) (store : σ)
    (save : σ → CommitPoint → σ × Except ε Unit) : CommitLedger × σ × Except ε Bool :=
  if !force && !l.needsFlush then (l, store, .ok false) else l.persist store save

end CommitLedger

end ShardKeeper
