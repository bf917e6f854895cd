import ShardKeeper.Task.Job
import ShardKeeper.Task.Shutdown

/-!
# Workplaces

A task group whose tasks are jobs, under a clock.

## Main definitions

* `Workplace` — the jobs, their group and the clock
* `Workplace.start`, `Workplace.abort` — the life of a job
* `Workplace.move?` — the next step of one of them

A job that fails or is stopped from outside stays on the board.
-/

namespace ShardKeeper

/-- A job and where it stands. -/
structure Job where
  plan : JobPlan
  ticket : TaskTicket
  phase : JobPhase
deriving DecidableEq

/-- Jobs under a clock. -/
structure Workplace where
  clock : Instant
  group : TaskGroup
  jobs : List Job
  /-- Tokens without a task, with their numbers. -/
  tokens : List TaskTicket
deriving DecidableEq

namespace Workplace

/-- A workplace without jobs. -/
def empty : Workplace := ⟨0, .empty, [], []⟩

instance : Inhabited Workplace := ⟨empty⟩

/-- A new job, and its place among the jobs. -/
def start (w : Workplace) (name : String) (kind : TaskClass) (plan : JobPlan) : Workplace × Nat :=
  let (group, ticket) := w.group.start name kind
  ({ w with group, jobs := w.jobs ++ [⟨plan, ticket, .fresh⟩] }, w.jobs.length)

/-- How the job at a place has ended. -/
def ending? (w : Workplace) (place : Nat) : Option JobEnding :=
  w.jobs[place]?.bind fun j => j.phase.ending?

/-- Stops a job from outside, unless it has ended. -/
def abort (w : Workplace) (place : Nat) : Workplace :=
  match w.jobs[place]? with
  | none => w
  | some j =>
    if (j.phase.ending?).isSome then w
    else { w with jobs := w.jobs.set place { j with phase := .ended .aborted } }

/-- A new token, and its place among the tokens. -/
def newToken (w : Workplace) : Workplace × Nat :=
  let (group, ticket) := w.group.issue
  ({ w with group, tokens := w.tokens ++ [ticket] }, w.tokens.length)

/-- A token with the same number derived from the one at a place. -/
def deriveToken (w : Workplace) (place : Nat) : Workplace × Nat :=
  match w.tokens[place]? with
  | none => (w, w.tokens.length)
  | some t =>
    let derived : TaskTicket := { t with token := t.token.derive w.tokens.length }
    ({ w with tokens := w.tokens ++ [derived] }, w.tokens.length)

/-- Cancels the token at a place. -/
def cancelToken (w : Workplace) (place : Nat) : Workplace :=
  match w.tokens[place]? with
  | none => w
  | some t => { w with group := w.group.cancel t.token }

/-! ### Time -/

/-- The next step of the job at a place, unless it waits or has ended. -/
def move? (w : Workplace) (place : Nat) : Option Workplace := do
  let j ← w.jobs[place]?
  let phase ← j.phase.next? j.plan w.clock (w.group.isCancelled j.ticket.token)
  let jobs := w.jobs.set place { j with phase }
  let hasEnded := phase.ending?.any JobEnding.isRegular
  return { w with jobs, group := if hasEnded then w.group.finish j.ticket.id else w.group }

/-- The next step of a job that can make one. -/
def act? (w : Workplace) : Option Workplace := (List.range w.jobs.length).findSome? w.move?

/-- More steps than the workplace can take: a job takes at most three, with time passing before
each, and a waiter, who is told at most once more, at most eight. -/
def stepBound (w : Workplace) : Nat := 8 * (w.jobs.length + w.group.board.waiters.length + 1)

instance : Staffed Workplace where
  now w := w.clock
  act? w := (w.group.attendNext?.map fun group => { w with group }).or w.act?
  due? w := Timed.earliest? (w.jobs.map fun j => j.phase.due?)
  waitUntil w t := { w with clock := t }
  patience w := w.stepBound
  group w := w.group
  withGroup w group := { w with group }

end Workplace

end ShardKeeper
