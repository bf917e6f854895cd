import ShardKeeper.Node.Basic

/-!
# Activities of the node

## Main definitions

* `Node.move?` — the next step of an activity, unless it waits or has ended
* `Node.due?` — the instant an activity waits for

## Design notes

Each step is as short as it can be: what happens between two moments at which somebody else may act.
Every order of steps of the activities, with operations and the passing of time in between, is a
possible course of the node.
-/

namespace ShardKeeper

namespace Node

/-- The next step of an activity that follows a catalog file. -/
def moveFollowing? (n : Node) (number : Nat) (path : Path) (interval : Duration)
    (ticket : TaskTicket) (phase : FileSync) : Option Node := do
  let cancelled := n.group.isCancelled ticket.token
  let (feed, phase) ← phase.next? n.feed interval n.clock cancelled (n.files.read path).toOption
  let n := { n with feed }.set number (.following path interval ticket phase)
  return if phase = .ended then n.finish ticket else n

/-- The next step of the saga `s`, or the end of the removal that it waits for. -/
def stepSaga? (n : Node) (saga : Nat) (s : Saga) (ticket : TaskTicket) : Option Node :=
  if s.phase = .removing then
    let (removals, files, error) := n.removals.finish n.files (s.key.path n.layout)
    some { n with removals, files, desk := n.desk.finishRemoval saga n.clock error }
  else do
    let cancelled := n.group.isCancelled ticket.token
    let (desk, effect) ← n.desk.move? saga n.clock cancelled n.feed.catalog
    match effect with
    | .nothing => return { n with desk }
    | .request => return { n with desk, feed := n.feed.request }
    | .remove =>
      let held := desk.locks.taken - desk.locks.returned
      return { n with
        desk, removals := n.removals.begin ⟨s.key.path n.layout, n.clock, held⟩ }

/-- The next step of a reclaim. Its task ends with its saga. -/
def moveReclaiming? (n : Node) (saga : Nat) (ticket : TaskTicket) : Option Node := do
  let s ← n.desk.sagas[saga]?
  let n ← n.stepSaga? saga s ticket
  return if n.desk.sagas[saga]?.any Saga.isOver then n.finish ticket else n

/-- The next step of an activity that refreshes a shard again and again. Without a time between two
refreshes it cannot begin; then its task stays on the board. -/
def moveTending? (n : Node) (number shard : Nat) (interval : Duration) (ticket : TaskTicket)
    (phase : LoopPhase) : Option Node := do
  let s ← n.roster.shards[shard]?
  let become (n : Node) (phase : LoopPhase) : Node :=
    n.set number (.tending shard interval ticket phase)
  match phase with
  | .fresh =>
    return become n (if interval.isZero then .ended else .waiting (.start interval n.clock))
  | .waiting ticker =>
    let cancelled := n.isStopped s || n.group.isCancelled ticket.token
    match ← LoopPhase.wake? ticker n.clock cancelled with
    | .ended => return (become n .ended).finish ticket
    | phase => return become n phase
  | .refreshing ticker refresh =>
    let (s, refresh) ← refresh.next? s (n.reading s)
    return become (n.setShard shard s) (.afterRefresh ticker refresh)
  | .flushing ticker => return become (n.flush shard false).1 (.waiting ticker)
  | .ended => none

/-- The next step of an activity that listens to health events. -/
def moveListening? (n : Node) (number channel : Nat) (ticket : TaskTicket) (hasEnded : Bool) :
    Option Node := do
  let c ← n.channels[channel]?
  let ended := (n.set number (.listening channel ticket true)).finish ticket
  if hasEnded then none
  else if n.group.isCancelled ticket.token then return ended
  else
    let (receipt, c) ← c.receive
    if receipt = .closed then return ended
    else return { n with channels := n.channels.set channel c, roster := n.roster.hear receipt }

/-- The first step of an opening: one that is to be hosted fails when the shard is hosted already,
and otherwise gets a token of its own. -/
def beginOpening (n : Node) (number : Nat) (plan : OpeningPlan) (token : Token) : Node :=
  if plan.refreshing.isSome && (n.roster.find? plan.id).isSome then
    n.set number (.opening plan token (.done (.error (.alreadyHosted plan.id))))
  else
    let (n, token) :=
      if plan.refreshing.isSome then
        let (group, ticket) := n.group.issue
        ({ n with group }, ticket.token)
      else (n, token)
    match plan.draft token n.load with
    | .error e => n.set number (.opening plan token (.done (.error e)))
    | .ok (draft, condition) =>
      { n with feed := n.feed.request }.set number
        (.opening plan token (.looking draft ⟨condition, n.polling, n.clock⟩ n.clock))

/-- Takes an opened shard up. One that is to be hosted is registered and refreshed from then on, but
it is closed at once when the same shard has been hosted in the meantime. -/
def takeUp (n : Node) (number : Nat) (plan : OpeningPlan) (token : Token) (draft : HostedShard) :
    Node :=
  let (roster, shard) := n.roster.add draft
  let finished (n : Node) (result : Except ShardError Nat) : Node :=
    n.set number (.opening plan token (.done result))
  match plan.refreshing with
  | none => finished { n with roster } (.ok shard)
  | some interval =>
    match roster.register? shard with
    | none =>
      finished { n with roster := roster.modify shard HostedShard.close }
        (.error (.alreadyHosted plan.id))
    | some roster =>
      let (group, ticket) := n.group.start ("refresh " ++ plan.id.text) .background
      let (n, _) := { n with roster, group }.begin (.tending shard interval ticket .fresh)
      finished n (.ok shard)

/-- The next step of an opening. -/
def moveOpening? (n : Node) (number : Nat) (plan : OpeningPlan) (token : Token)
    (phase : OpeningPhase) : Option Node :=
  match phase with
  | .arriving => some (n.beginOpening number plan token)
  | .looking draft wait next =>
    let cancelled := n.group.isCancelled token
    if cancelled || decide (next ≤ n.clock) then
      let phase := OpeningPlan.look draft wait n.clock cancelled n.feed.catalog
      some (n.set number (.opening plan token phase))
    else none
  | .registering draft => some (n.takeUp number plan token draft)
  | .done _ => none

/-- The next step of a change of a document. -/
def moveWriting? (n : Node) (number shard : Nat) (operation : DocumentChange.Operation)
    (request : WriteRequest) (call : Call WriteResponse)
    (result : Option (Except ShardError Unit)) : Option Node := do
  let s ← n.roster.shards[shard]?
  let become (n : Node) (call : Call WriteResponse) (result : Option (Except ShardError Unit)) :=
    n.set number (.writing shard operation request call result)
  match call.phase, result with
  | .sending, _ =>
    let (searcher, response, latency) := n.searcher.write request
    return become { n with searcher } (call.sent response latency n.clock) none
  | .ended r, none =>
    let (s, result) := s.afterWrite operation r
    return become (n.setShard shard s) call (some result)
  | _, _ => return become n (← call.next? n.clock (n.isStopped s)) none

/-- The next step of a look-up of a document. -/
def moveQuerying? (n : Node) (number shard : Nat) (request : QueryRequest)
    (call : Call QueryResponse) : Option Node := do
  let s ← n.roster.shards[shard]?
  if call.isSending then
    let (searcher, response, latency) := n.searcher.query request
    return { n with searcher }.set number
      (.querying shard request (call.sent response latency n.clock))
  else
    let call ← call.next? n.clock (n.isStopped s)
    return n.set number (.querying shard request call)

/-- The next step of a refresh on demand. -/
def moveRefreshing? (n : Node) (number shard : Nat) (phase : RefreshPhase) : Option Node := do
  let s ← n.roster.shards[shard]?
  let (s, phase) ← phase.next? s (n.reading s)
  return (n.setShard shard s).set number (.refreshing shard phase)

/-- The next step of a report. -/
def moveReporting? (n : Node) (number shard : Nat) (phase : ReportPhase) : Option Node := do
  let s ← n.roster.shards[shard]?
  let (s, phase) ← phase.next? s (n.wall * 1000000) (n.tableSize? s)
  return (n.setShard shard s).set number (.reporting shard phase)

/-- The node after the next step of an activity; nothing when that waits or has ended. -/
def move? (n : Node) (number : Nat) : Option Node := do
  match ← n.activities[number]? with
  | .following path interval ticket phase => n.moveFollowing? number path interval ticket phase
  | .reclaiming saga ticket => n.moveReclaiming? saga ticket
  | .tending shard interval ticket phase => n.moveTending? number shard interval ticket phase
  | .listening channel ticket hasEnded => n.moveListening? number channel ticket hasEnded
  | .opening plan token phase => n.moveOpening? number plan token phase
  | .writing shard operation request call result =>
    n.moveWriting? number shard operation request call result
  | .querying shard request call => n.moveQuerying? number shard request call
  | .refreshing shard phase => n.moveRefreshing? number shard phase
  | .reporting shard phase => n.moveReporting? number shard phase

/-- The instant an activity waits for. -/
def due? (n : Node) : Activity → Option Instant
  | .following _ _ _ phase => phase.due?
  | .reclaiming saga _ => n.desk.sagas[saga]?.bind fun s => s.phase.due?
  | .tending _ _ _ phase => phase.due?
  | .opening _ _ phase => phase.due?
  | .writing _ _ _ call _ => call.due?
  | .querying _ _ call => call.due?
  | .listening .. | .refreshing .. | .reporting .. => none

instance : Staffed Node where
  now n := n.clock
  act? n :=
    (n.group.attendNext?.map fun group => { n with group }).or
      ((List.range n.activities.length).findSome? n.move?)
  due? n := Timed.earliest? (n.activities.map n.due?)
  waitUntil n t := { n with clock := t }
  group n := n.group
  withGroup n group := { n with group }

end Node

end ShardKeeper
