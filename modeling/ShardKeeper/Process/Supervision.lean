import ShardKeeper.Process.Event
import ShardKeeper.Process.Table
import ShardKeeper.Time

/-!
# Supervision of processes

Roles are started, stopped, watched and restarted by what the process table shows.

## Main definitions

* `ProcessTable.start` — starts a role that nobody plays
* `Stopping`, `Stopping.look` — a role on its way to a stop
* `Stopping.run` — such a stop when nothing else happens on the machine
* `ProcessTable.check` — a look at a role, with a restart when nobody plays it
-/

namespace ShardKeeper

/-! ### Starting -/

/-- What came of a start. -/
inductive StartOutcome where
  /-- So many processes play the role already; nothing was launched. -/
  | alreadyRunning (count : Nat)
  | launched
deriving DecidableEq

/-- Why a role could not be started. -/
inductive StartError where
  /-- The role lacks a start command or a signature. -/
  | unusable (role : String)
  | refused (role : String)
deriving DecidableEq

/-- The text of a failed start. -/
def StartError.message : StartError → String
  | .unusable role =>
    "role " ++ role ++ " is misconfigured: start command and signature must be non-empty"
  | .refused role => "failed to launch " ++ role ++ ": " ++ ProcessTable.refusal

/-- Starts a role, unless some process plays it already. -/
def ProcessTable.start (t : ProcessTable) (role : Role) :
    ProcessTable × Except StartError StartOutcome :=
  if !role.isUsable then (t, .error (.unusable role.name))
  else
    match (t.owned role).length with
    | 0 =>
      match t.launch role with
      | (t, true) => (t, .ok .launched)
      | (t, false) => (t, .error (.refused role.name))
    | n + 1 => (t, .ok (.alreadyRunning (n + 1)))

/-! ### Stopping -/

/-- What came of a stop. -/
inductive StopOutcome where
  | notRunning
  /-- No process was left within the time allowed. -/
  | stopped
  /-- So many processes were left and were forced to end. -/
  | killed (survivors : Nat)
deriving DecidableEq

/-- A role whose processes were asked to end. -/
structure Stopping where
  role : Role
  /-- When the patience with them ends. -/
  deadline : Instant
deriving DecidableEq

namespace Stopping

/-- The pause between two looks at the table. -/
def pause : Duration := .ofMillis 100

/-- Asks all processes of a role to end, if there are any. The clock can tell when the time allowed
is over if that is no later than `Instant.latest`. -/
def begin (t : ProcessTable) (role : Role) (timeout : Duration) (now : Instant) :
    ProcessTable × Option Stopping :=
  match t.owned role with
  | [] => (t, none)
  | pids => (t.terminateAll pids false, some ⟨role, now + timeout.nanos⟩)

/-- What a look at the table decides. -/
inductive Decision where
  | finish (outcome : StopOutcome)
  /-- Look again at an instant. -/
  | again (next : Instant)
deriving DecidableEq

/-- The instant of the next look after one at `now`, which comes before the deadline. -/
def nextLook (s : Stopping) (now : Instant) : Instant := now + min pause.nanos (s.deadline - now)

/-- A look at the table. -/
def look (s : Stopping) (t : ProcessTable) (now : Instant) : ProcessTable × Decision :=
  match t.owned s.role with
  | [] => (t, .finish .stopped)
  | pids =>
    if s.deadline ≤ now then (t.terminateAll pids true, .finish (.killed pids.length))
    else (t, .again (s.nextLook now))

/-- A stop from a look at `now` on, when nothing else happens on the machine: the table afterwards,
the outcome, and its instant. -/
def runFrom (s : Stopping) (t : ProcessTable) (now : Instant) :
    ProcessTable × StopOutcome × Instant :=
  match t.owned s.role with
  | [] => (t, .stopped, now)
  | pids =>
    if _late : s.deadline ≤ now then (t.terminateAll pids true, .killed pids.length, now)
    else runFrom s t (s.nextLook now)
termination_by s.deadline - now
decreasing_by
  have hlt : now < s.deadline := Nat.lt_of_not_le _late
  have hpos : 0 < min pause.nanos (s.deadline - now) :=
    Nat.lt_min.2 ⟨by decide, Nat.sub_pos_of_lt hlt⟩
  exact Nat.sub_lt_sub_left hlt (Nat.lt_add_of_pos_right hpos)

/-- The whole of a stop when nothing else happens on the machine. -/
def run (t : ProcessTable) (role : Role) (timeout : Duration) :
    ProcessTable × StopOutcome × Instant :=
  match begin t role timeout 0 with
  | (t, none) => (t, .notRunning, 0)
  | (t, some s) => s.runFrom t 0

end Stopping

/-! ### Watching -/

namespace ProcessTable

/-- Whether exactly one process plays a role. -/
def isAlive (t : ProcessTable) (role : Role) : Bool := (t.owned role).length == 1

/-- Looks at a role and starts it when nobody plays it. What was found and done is told as events,
the last of which is what the check came to. -/
def check (t : ProcessTable) (role : Role) : ProcessTable × List HealthEvent :=
  match (t.owned role).length with
  | 1 => (t, [])
  | 0 =>
    match t.start role with
    | (t, .ok _) => (t, [.dead role.name, .restarted role.name])
    | (t, .error e) => (t, [.dead role.name, .restartFailed role.name e.message])
  | n => (t, [.ambiguous role.name n])

end ProcessTable

end ShardKeeper
