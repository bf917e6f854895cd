import ShardKeeper.Task.Group
import ShardKeeper.Timed

/-!
# Shutdown

## Main definitions

* `Staffed` — a world with a task group
* `Staffed.waitIdle` — waits until no task is under way, for a limited time
* `Staffed.shutdown` — cancels every task and waits for them to end, for a limited time
-/

namespace ShardKeeper

/-- A world in which the tasks of a group are under way. -/
class Staffed (σ : Type) extends Timed σ where
  group : σ → TaskGroup
  withGroup : σ → TaskGroup → σ

namespace Staffed

variable {σ : Type} [Staffed σ]

/-- How long a shutdown waits unless something else is said. -/
def grace : Duration := .ofSeconds 5

/-- The world with another board. -/
def withBoard (s : σ) (board : TaskBoard) : σ := withGroup s { group s with board }

/-- The world after the next step of a waiter, if it can make one. -/
def attend (s : σ) (waiter : Nat) : σ :=
  match (group s).board.attend? waiter with
  | some board => withBoard s board
  | none => s

/-- The world with one more waiter, who has already looked at the board, and the number of the
waiter. -/
def arrive (s : σ) : σ × Nat :=
  let (board, waiter) := (group s).board.arrive
  (attend (attend (withBoard s board) waiter) waiter, waiter)

/-- Waits until no task is under way, for a limited time, and tells whether it came to that. -/
def waitIdle (s : σ) (limit : Duration) : σ × Bool :=
  let (s, waiter) := arrive s
  let s := Timed.run (fun s => (group s).board.isDone waiter) (some (Timed.now s + limit.nanos))
    (Timed.patience s) [] s
  (withBoard s ((group s).board.dismiss waiter), (group s).board.isDone waiter)

/-- Cancels every task, waits for a limited time until none is under way, and tells how many still
are. -/
def shutdown (s : σ) (grace : Duration) : σ × Nat :=
  let (s, _) := waitIdle (withGroup s (group s).cancelAll) grace
  (s, (group s).board.size)

end Staffed

end ShardKeeper
