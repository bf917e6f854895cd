import ShardKeeper.Catalog.FileSync
import ShardKeeper.Durability.MemoryStore
import ShardKeeper.Reclaim.Desk
import ShardKeeper.Reclaim.Removal
import ShardKeeper.Searcher.Call
import ShardKeeper.Searcher.Rehearsal
import ShardKeeper.Shard.Documents
import ShardKeeper.Shard.Opening
import ShardKeeper.Shard.Refresh
import ShardKeeper.Shard.Report
import ShardKeeper.Shard.Roster
import ShardKeeper.Storage.LocalCheckpoint
import ShardKeeper.Storage.RecordFile
import ShardKeeper.Task.Shutdown

/-!
# The node

A node hosts shards, removes released data and follows the catalog. What it does beside answering is
done by activities, each of which is a small machine that acts on the node.

## Main definitions

* `Activity` — something that is under way
* `Node` — everything there is
* `Node.load`, `Node.save` — stored commit points
* `Node.reading` — what a refresh of a shard would read
-/

namespace ShardKeeper

/-- Something that is under way. A number names a shard, a saga or a channel of the node. -/
inductive Activity where
  /-- Follows a catalog file. -/
  | following (path : Path) (interval : Duration) (ticket : TaskTicket) (phase : FileSync)
  /-- Removes the data of a key. -/
  | reclaiming (saga : Nat) (ticket : TaskTicket)
  /-- Refreshes a shard again and again. -/
  | tending (shard : Nat) (interval : Duration) (ticket : TaskTicket) (phase : LoopPhase)
  /-- Listens to health events. -/
  | listening (channel : Nat) (ticket : TaskTicket) (hasEnded : Bool)
  /-- Opens a shard. -/
  | opening (plan : OpeningPlan) (token : Token) (phase : OpeningPhase)
  /-- Changes a document. -/
  | writing (shard : Nat) (operation : DocumentChange.Operation) (request : WriteRequest)
      (call : Call WriteResponse) (result : Option (Except ShardError Unit))
  /-- Looks a document up. -/
  | querying (shard : Nat) (request : QueryRequest) (call : Call QueryResponse)
  /-- Refreshes a shard once. -/
  | refreshing (shard : Nat) (phase : RefreshPhase)
  /-- Reports the statistics of a shard. -/
  | reporting (shard : Nat) (phase : ReportPhase)

/-- A node and what surrounds it. -/
structure Node where
  /-- The present instant. -/
  clock : Instant
  /-- The time on the machine's clock, in milliseconds since 1970. Timers do not follow it. -/
  wall : Int
  group : TaskGroup
  feed : CatalogFeed
  files : FileTree
  layout : Layout
  polling : PollSettings
  backoff : BackoffPolicy
  searcher : RehearsedSearcher
  /-- The commit point that is stored in memory. -/
  memory : MemoryStore
  /-- The local checkpoint that the node is told. -/
  checkpoint : Int
  roster : Roster
  /-- Channels of health events, the newest last. -/
  channels : List (Broadcast HealthEvent)
  desk : ReclaimDesk
  removals : Removals
  activities : List Activity

namespace Node

/-- A node at its start, in January 2026 by the machine's clock. -/
def starting (layout : Layout) (files : FileTree) (polling : PollSettings) (backoff : BackoffPolicy)
    (reclaim : ReclaimSettings) : Node where
  clock := 0
  wall := 1767225600000
  group := .empty
  feed := .empty
  files := files
  layout := layout
  polling := polling
  backoff := backoff
  searcher := .agreeable
  memory := .holding .unknown
  checkpoint := LocalCheckpoint.unknown
  roster := .empty
  channels := []
  desk := .opened ⟨reclaim, polling⟩
  removals := .real
  activities := []

/-- The node with one more activity, and the number of that. -/
def begin (n : Node) (a : Activity) : Node × Nat :=
  ({ n with activities := n.activities ++ [a] }, n.activities.length)

/-- The node with an activity changed. -/
def set (n : Node) (number : Nat) (a : Activity) : Node :=
  { n with activities := n.activities.set number a }

/-- The node after a task has ended. -/
def finish (n : Node) (ticket : TaskTicket) : Node := { n with group := n.group.finish ticket.id }

/-- The node with a shard changed. -/
def setShard (n : Node) (number : Nat) (s : HostedShard) : Node :=
  { n with roster := n.roster.modify number fun _ => s }

/-- Whether whatever is under way for a shard is cancelled. -/
def isStopped (n : Node) (s : HostedShard) : Bool := s.isClosed || n.group.isCancelled s.token

/-! ### Stored commit points -/

/-- The commit point stored at a place. -/
def load (n : Node) : RecordPlace → Except StorageFault CommitPoint
  | .file path => RecordFile.load n.files path
  | .memory =>
    match n.memory.load with
    | .ok point => .ok point
    | .error () => .error (.inaccessible ⟨"store"⟩)

/-- The node after a commit point was stored at a place, unless that failed. -/
def save (place : RecordPlace) (n : Node) (point : CommitPoint) : Node × Except StorageFault Unit :=
  match place with
  | .file path =>
    let (files, result) := RecordFile.store n.files path point
    ({ n with files }, result)
  | .memory =>
    match n.memory.store point with
    | (memory, .ok ()) => ({ n with memory }, .ok ())
    | (memory, .error ()) => ({ n with memory }, .error (.inaccessible ⟨"store"⟩))

/-- Stores the commit point of a shard if it is newer than the stored one, or in any case when
forced. Returns whether anything was stored. -/
def flush (n : Node) (number : Nat) (force : Bool) : Node × Except StorageFault Bool :=
  match n.roster.shards[number]? with
  | none => (n, .ok false)
  | some s =>
    let (s, n, result) := s.flush force n (save s.record)
    (n.setShard number s, result)

/-! ### What a shard depends on -/

/-- The local checkpoint of a shard. -/
def localCheckpoint (n : Node) : CheckpointSource → Int
  | .told => n.checkpoint
  | .file path => LocalCheckpoint.read n.files path

/-- What a refresh of a shard would read. -/
def reading (n : Node) (s : HostedShard) : Reading :=
  ⟨n.localCheckpoint s.source, n.wall,
    VersionMarker.ofPartition n.files n.layout s.id.table s.slice⟩

/-- The size of the data of a shard's table. -/
def tableSize? (n : Node) (s : HostedShard) : Option Nat :=
  n.files.size? (n.layout.tableDirectory s.id.table)

end Node

end ShardKeeper
