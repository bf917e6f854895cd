import ShardKeeper.Shard.Hosted

/-!
# Opening a shard

A shard is opened once its commit point is loaded and the engine serves its partition.

## Main definitions

* `OpeningPlan` — what is to be opened, and how
* `OpeningPhase` — where an opening stands
* `OpeningPlan.draft`, `OpeningPlan.look` — what is known beforehand, and a look at the catalog
-/

namespace ShardKeeper

/-- What is to be opened, and how. -/
structure OpeningPlan where
  id : ShardId
  /-- The number of shards of the table. -/
  count : Nat
  /-- The empty history, with its bounds. -/
  history : CheckpointHistory
  record : RecordPlace
  source : CheckpointSource
  statisticsAge : Duration
  /-- How often the shard is to be refreshed once it is hosted; without, it is not hosted. -/
  refreshing : Option Duration
deriving DecidableEq

/-- Where an opening stands. -/
inductive OpeningPhase where
  /-- It is about to look whether the shard is hosted already, to load its commit point, and to ask
  for a newer catalog. -/
  | arriving
  /-- The shard is ready but for the engine; the next look at the catalog is at an instant. -/
  | looking (draft : HostedShard) (wait : CatalogWait) (next : Instant)
  /-- It is about to take the shard up. -/
  | registering (draft : HostedShard)
  /-- It has ended, and tells the number of the shard. -/
  | done (result : Except ShardError Nat)

/-- The result of an opening that has ended. -/
def OpeningPhase.result? : OpeningPhase → Option (Except ShardError Nat)
  | .done result => some result
  | _ => none

/-- The instant an opening waits for. -/
def OpeningPhase.due? : OpeningPhase → Option Instant
  | .looking _ _ next => some next
  | _ => none

namespace OpeningPlan

/-- The shard as it will be when the engine serves it, and the condition to wait for. -/
def draft (p : OpeningPlan) (token : Token)
    (load : RecordPlace → Except StorageFault CommitPoint) :
    Except ShardError (HostedShard × CatalogCondition) :=
  match HashSlice.ofShard? p.count p.id.index with
  | none => .error (.noSuchShard p.count p.id.index)
  | some slice =>
    match load p.record with
    | .error fault => .error (.storage fault)
    | .ok point =>
      .ok (.opened p.id slice (.opened p.history point) p.record p.source token p.statisticsAge,
        .presence p.id.table slice.partitionId)

/-- The opening after a look at the catalog. -/
def look (draft : HostedShard) (wait : CatalogWait) (now : Instant) (cancelled : Bool)
    (catalog : Option Catalog) : OpeningPhase :=
  match wait.poll now cancelled catalog with
  | .met => .registering draft
  | .interrupted => .done (.error (.notServed (.interrupted wait.condition)))
  | .timedOut waited => .done (.error (.notServed (.timedOut wait.condition waited)))
  | .again next => .looking draft wait next

end OpeningPlan

end ShardKeeper
