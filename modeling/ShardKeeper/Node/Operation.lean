import ShardKeeper.Catalog.Timeline
import ShardKeeper.Node.Activity

/-!
# Operations of the node

What can be asked of a node. An operation that takes time is an activity of its own; the node goes
on with everything else until that has ended.

## Main definitions

* `Node.openShard`, `Node.closeShard` — the shards that the node hosts
* `Node.write`, `Node.query`, `Node.refresh`, `Node.report` — operations on an opened shard
* `Node.reclaim`, `Node.deleteTable`, `Node.deleteShard` — the removal of released data
* `Node.follow`, `Node.tend`, `Node.listen` — activities in the background
* `Node.shutdown` — the end
* `Node.changes` — what a timeline does to the node
-/

namespace ShardKeeper

namespace Node

/-- Begins an activity and leaves the node to itself until the activity has a result, while it is
changed from outside. There is no result if the activity never ends. -/
def complete {α : Type} (n : Node) (a : Activity) (result? : Activity → Option α)
    (changes : List (Timed.Change Node)) : Node × Option α :=
  let (n, number) := n.begin a
  let found (n : Node) : Option α := n.activities[number]?.bind result?
  let n := Timed.runUntil (fun n => (found n).isSome) changes n
  (n, found n)

/-- What a timeline, told from the present instant on, does to the node; a cancellation is that of
a token. -/
def changes (n : Node) (t : Token) (timeline : Timeline) : List (Timed.Change Node) :=
  timeline.map fun e =>
    ⟨n.clock + e.1, fun n =>
      match e.2 with
      | .publish c => { n with feed := n.feed.publish c }
      | .clear => { n with feed := n.feed.clear }
      | .cancel => { n with group := n.group.cancel t }⟩

/-! ### In the background -/

/-- Starts to follow a catalog file. -/
def follow (n : Node) (path : Path) (interval : Duration) : Node :=
  let (group, ticket) := n.group.start "target-file-sync" .background
  ({ n with group }.begin (.following path interval ticket .reading)).1

/-- Starts to refresh a shard again and again. -/
def tend (n : Node) (shard : Nat) (interval : Duration) : Node :=
  match n.roster.shards[shard]? with
  | none => n
  | some s =>
    let (group, ticket) := n.group.start ("refresh " ++ s.id.text) .background
    ({ n with group }.begin (.tending shard interval ticket .fresh)).1

/-- The node without a sender on the newest channel of health events. -/
def hangUp (n : Node) : Node :=
  { n with channels := n.channels.modify (n.channels.length - 1) Broadcast.hangUp }

/-- Starts to listen on a new channel of health events; nobody sends on the one before. -/
def listen (n : Node) (capacity : Nat) : Node :=
  let n := n.hangUp
  let (group, ticket) := n.group.start "engine-health-listener" .background
  let channel := n.channels.length
  ({ n with group, channels := n.channels ++ [Broadcast.withRoomFor capacity] }.begin
    (.listening channel ticket false)).1

/-- Sends health events on the newest channel. -/
def tell (n : Node) (events : List HealthEvent) : Node :=
  { n with channels := n.channels.modify (n.channels.length - 1) fun c => c.sendAll events }

/-! ### Shards -/

/-- A token that nothing else on the node has. -/
def newToken (n : Node) : Token := .top (n.activities.length + 1)

/-- Opens a shard, and returns its number. One that is not to be hosted is opened under `token`. -/
def openShard (n : Node) (plan : OpeningPlan) (token : Token)
    (changes : List (Timed.Change Node)) : Node × Option (Except ShardError Nat) :=
  n.complete (.opening plan token .arriving)
    (fun a =>
      match a with
      | .opening _ _ phase => phase.result?
      | _ => none)
    changes

/-- Closes a hosted shard, stores its commit point if that is newer than the stored one, and tells
whether the shard was hosted. -/
def closeShard (n : Node) (id : ShardId) : Node × Bool :=
  match n.roster.remove id with
  | none => (n, false)
  | some (roster, number) => (({ n with roster }.flush number false).1, true)

/-- Closes several shards. -/
def closeShards (n : Node) (ids : List ShardId) : Node :=
  ids.foldl (fun n id => (n.closeShard id).1) n

/-- Applies a change of a document to an opened shard. -/
def write (n : Node) (shard : Nat) (change : DocumentChange)
    (changes : List (Timed.Change Node)) : Node × Option (Except ShardError Unit) :=
  match n.roster.shards[shard]? with
  | none => (n, none)
  | some s =>
    match s.refusal? with
    | some e => (n, some (.error e))
    | none =>
      n.complete
        (.writing shard change.operation (s.writeRequest change) (.start n.backoff n.clock) none)
        (fun a =>
          match a with
          | .writing _ _ _ _ result => result
          | _ => none)
        changes

/-- Looks a document of an opened shard up. -/
def query (n : Node) (shard : Nat) (documentId : String) (changes : List (Timed.Change Node)) :
    Node × Option (Except ShardError (Option FoundDocument)) :=
  match n.roster.shards[shard]? with
  | none => (n, none)
  | some s =>
    match s.refusal? with
    | some e => (n, some (.error e))
    | none =>
      n.complete (.querying shard (s.queryRequest documentId) (.start n.backoff n.clock))
        (fun a =>
          match a with
          | .querying _ _ call => call.result?.map HostedShard.afterQuery
          | _ => none)
        changes

/-- Refreshes an opened shard, and tells whether its commit point changed. -/
def refresh (n : Node) (shard : Nat) : Node × Option (Except StorageFault Bool) :=
  n.complete (.refreshing shard .arriving)
    (fun a =>
      match a with
      | .refreshing _ phase => phase.result?
      | _ => none)
    []

/-- Reports the statistics of an opened shard. -/
def report (n : Node) (shard : Nat) : Node × Option Statistics :=
  n.complete (.reporting shard .loading)
    (fun a =>
      match a with
      | .reporting _ phase => phase.result?
      | _ => none)
    []

/-! ### Released data -/

/-- Begins to reclaim the data of a key, and returns the number of the saga; nothing when one is
under way. -/
def reclaim (n : Node) (key : ReclaimKey) : Node × Option Nat :=
  match n.desk.request key with
  | none => (n, none)
  | some (desk, saga) =>
    let (group, ticket) := n.group.start ("reclaim " ++ key.text) .reclaim
    (({ n with desk, group }.begin (.reclaiming saga ticket)).1, some saga)

/-- Closes every hosted shard of a table and begins to reclaim its data. -/
def deleteTable (n : Node) (table : String) : Node × Option Nat :=
  (n.closeShards (n.roster.ids.filter fun id => id.table == table)).reclaim (.table table)

/-- Closes a shard and begins to reclaim its partition. -/
def deleteShard (n : Node) (id : ShardId) (count : Nat) : Node × Except ShardError (Option Nat) :=
  match HashSlice.ofShard? count id.index with
  | none => (n, .error (.noSuchShard count id.index))
  | some slice =>
    let (n, saga) := (n.closeShard id).1.reclaim (.shard id.table slice)
    (n, .ok saga)

/-- Leaves the node to itself until a saga has ended. -/
def awaitSaga (n : Node) (saga : Nat) : Node × Option ReclaimOutcome :=
  let found (n : Node) : Option ReclaimOutcome :=
    n.desk.sagas[saga]?.bind fun s => s.phase.outcome?
  let n := Timed.runUntil (fun n => (found n).isSome) [] n
  (n, found n)

/-! ### The end -/

/-- Closes every hosted shard, cancels all tasks and waits for them to end, but not for ever. -/
def shutdown (n : Node) : Node := (Staffed.shutdown (n.closeShards n.roster.ids) Staffed.grace).1

end Node

end ShardKeeper
