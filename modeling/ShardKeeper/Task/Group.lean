import ShardKeeper.Task.Board
import ShardKeeper.Task.Token

/-!
# Task groups

Tasks that are started under one token, so that they can be cancelled together.

## Main definitions

* `TaskGroup` — the board, the cancelled tokens and the last number given out
* `TaskGroup.start`, `TaskGroup.finish` — the life of a task
* `TaskTicket` — the number and the token of a task
-/

namespace ShardKeeper

/-- The number and the token of a task. -/
structure TaskTicket where
  id : Nat
  token : Token
deriving DecidableEq, Inhabited

/-- Tasks under one token. -/
structure TaskGroup where
  board : TaskBoard
  cancellation : Cancellation
  /-- The last number given to a task or a token. -/
  lastId : Nat
deriving DecidableEq

namespace TaskGroup

/-- A group without tasks. -/
def empty : TaskGroup := ⟨.empty, .none, 0⟩

instance : Inhabited TaskGroup := ⟨empty⟩

/-- The token under which all tasks are started. -/
def root : Token := .top 0

/-- A new number, and a token derived from the root. -/
def issue (g : TaskGroup) : TaskGroup × TaskTicket :=
  ({ g with lastId := g.lastId + 1 }, ⟨g.lastId + 1, root.derive (g.lastId + 1)⟩)

/-- Puts a new task up. -/
def start (g : TaskGroup) (name : String) (kind : TaskClass) : TaskGroup × TaskTicket :=
  let (g, ticket) := g.issue
  ({ g with board := g.board.put ⟨ticket.id, name, kind⟩ }, ticket)

/-- Takes a task down that has come to its end. -/
def finish (g : TaskGroup) (id : Nat) : TaskGroup := { g with board := (g.board.remove id).1 }

/-- Cancels a token. -/
def cancel (g : TaskGroup) (t : Token) : TaskGroup :=
  { g with cancellation := g.cancellation.cancel t }

/-- Cancels every task. -/
def cancelAll (g : TaskGroup) : TaskGroup := g.cancel root

/-- Whether a token was cancelled. -/
def isCancelled (g : TaskGroup) (t : Token) : Bool := g.cancellation.reaches t

/-- The group after the next step of one of those who wait for its tasks to end. -/
def attendNext? (g : TaskGroup) : Option TaskGroup :=
  ((List.range g.board.waiters.length).findSome? g.board.attend?).map fun board =>
    { g with board }

end TaskGroup

end ShardKeeper
