import ShardKeeper.Broadcast
import ShardKeeper.Process.Supervision
import ShardKeeper.Task.Shutdown

/-!
# The process watch

A machine whose roles are looked after: some are checked again and again in the background, and
whoever subscribed is told what was found.

## Main definitions

* `ProcessWatch` — the machine, the clock, the tasks and the events
* `ProcessWatch.check`, `ProcessWatch.stop` — what is done on demand
* `ProcessWatch.watch` — a new background task that checks roles
-/

namespace ShardKeeper

/-- Where a background check stands. -/
inductive WatchPhase where
  /-- It has not begun. -/
  | fresh
  | waiting (ticker : Ticker)
  /-- It was cancelled, or could not begin. -/
  | ended
deriving DecidableEq

/-- A background task that checks roles. The first check comes after one interval. -/
structure RoleWatch where
  roles : List Role
  interval : Duration
  ticket : TaskTicket
  phase : WatchPhase
deriving DecidableEq

/-- A machine whose roles are looked after. -/
structure ProcessWatch where
  clock : Instant
  group : TaskGroup
  table : ProcessTable
  events : Broadcast HealthEvent
  watches : List RoleWatch
  /-- A stop under way, and the instant of its next look. -/
  stopping : Option (Stopping × Instant)
  /-- What the last stop came to. -/
  stopped : Option StopOutcome
deriving DecidableEq

namespace ProcessWatch

/-- How many unread events are kept. -/
def eventCapacity : Nat := 64

/-- A machine with a process table. -/
def ofTable (table : ProcessTable) : ProcessWatch :=
  ⟨0, .empty, table, .withRoomFor eventCapacity, [], none, none⟩

/-- Checks a role, tells the events, and returns the last of them. -/
def check (w : ProcessWatch) (role : Role) : ProcessWatch × Option HealthEvent :=
  let (table, events) := w.table.check role
  ({ w with table, events := w.events.sendAll events }, events.getLast?)

/-- Checks several roles. -/
def checkAll (w : ProcessWatch) (roles : List Role) : ProcessWatch :=
  roles.foldl (fun w role => (w.check role).1) w

/-- Starts to check roles in the background. -/
def watch (w : ProcessWatch) (roles : List Role) (interval : Duration) : ProcessWatch :=
  let (group, ticket) := w.group.start "process-health" .background
  { w with group, watches := w.watches ++ [⟨roles, interval, ticket, .fresh⟩] }

/-! ### Time -/

/-- The next step of a stop under way, unless it waits. -/
def moveStop? (w : ProcessWatch) : Option ProcessWatch :=
  match w.stopping with
  | none => none
  | some (s, next) =>
    if next ≤ w.clock then
      match s.look w.table w.clock with
      | (table, .finish outcome) => some { w with table, stopping := none, stopped := outcome }
      | (table, .again next) => some { w with table, stopping := some (s, next) }
    else none

/-- The watch with the phase of one background task changed. -/
def setPhase (w : ProcessWatch) (place : Nat) (watch : RoleWatch) (phase : WatchPhase) :
    ProcessWatch :=
  { w with watches := w.watches.set place { watch with phase } }

/-- The next step of the background task at a place, unless it waits or has ended. Without a time
between two checks it cannot begin; then it stays on the board. -/
def move? (w : ProcessWatch) (place : Nat) : Option ProcessWatch := do
  let watch ← w.watches[place]?
  match watch.phase with
  | .fresh =>
    if watch.interval.isZero then some (w.setPhase place watch .ended)
    else
      let ticker := (Ticker.start watch.interval w.clock).heard w.clock
      some (w.setPhase place watch (.waiting ticker))
  | .waiting ticker =>
    if w.group.isCancelled watch.ticket.token then
      some { w.setPhase place watch .ended with group := w.group.finish watch.ticket.id }
    else if ticker.isDue w.clock then
      some ((w.setPhase place watch (.waiting (ticker.heard w.clock))).checkAll watch.roles)
    else none
  | .ended => none

/-- The instant a background task waits for. -/
def WatchPhase.due? : WatchPhase → Option Instant
  | .waiting ticker => some ticker.next
  | _ => none

instance : Staffed ProcessWatch where
  now w := w.clock
  act? w :=
    (w.moveStop?.or (w.group.attendNext?.map fun group => { w with group })).or
      ((List.range w.watches.length).findSome? w.move?)
  due? w := Timed.earliest? (w.stopping.map (·.2) :: w.watches.map fun r => WatchPhase.due? r.phase)
  waitUntil w t := { w with clock := t }
  group w := w.group
  withGroup w group := { w with group }

/-- Stops a role, while other things happen. -/
def stop (w : ProcessWatch) (role : Role) (timeout : Duration)
    (changes : List (Timed.Change ProcessWatch)) : ProcessWatch × StopOutcome :=
  match Stopping.begin w.table role timeout w.clock with
  | (table, none) => ({ w with table }, .notRunning)
  | (table, some s) =>
    let w := Timed.runUntil (fun w : ProcessWatch => w.stopped.isSome) changes
      { w with table, stopping := some (s, w.clock), stopped := none }
    ({ w with stopped := none }, w.stopped.getD .notRunning)

end ProcessWatch

end ShardKeeper
