/-!
# The task board

The tasks that are under way, and those who wait until none is.

## Main definitions

* `TaskRecord`, `TaskBoard` — the tasks under way
* `IdleWaiter` — somebody who waits until no task is under way
* `TaskBoard.put`, `TaskBoard.remove` — changes to the tasks
* `TaskBoard.attend?` — the next step of a waiter

## Design notes

A waiter first asks to be told, then looks whether the board is empty, and only then goes to sleep.
Being told is remembered from the moment it asked, so a board that is emptied between the look and
the sleep wakes it all the same.
-/

namespace ShardKeeper

/-- What a task does. -/
inductive TaskClass where
  /-- Periodic work. -/
  | background
  /-- The removal of released data. -/
  | reclaim
  /-- Work on files or processes. -/
  | blocking
deriving DecidableEq

/-- The name of a class of tasks. -/
def TaskClass.name : TaskClass → String
  | .background => "background"
  | .reclaim => "reclaim"
  | .blocking => "io_blocking"

/-- A task under way. -/
structure TaskRecord where
  id : Nat
  name : String
  kind : TaskClass
deriving DecidableEq

/-- The order of tasks: by name, then by number. -/
def TaskRecord.le (a b : TaskRecord) : Bool := a.name < b.name || (a.name == b.name && a.id ≤ b.id)

/-- Where somebody stands who waits until no task is under way. -/
inductive IdleWaiter where
  /-- About to ask to be told. -/
  | arriving
  /-- Has asked, is about to look. -/
  | listening (told : Bool)
  /-- Has seen a task, sleeps until told. -/
  | asleep (told : Bool)
  /-- Has seen that there is no task. -/
  | done
  /-- Does not wait any longer. -/
  | gone
deriving DecidableEq

/-- The waiter after everybody who has asked was told. -/
def IdleWaiter.tell : IdleWaiter → IdleWaiter
  | .listening _ => .listening true
  | .asleep _ => .asleep true
  | w => w

/-- The tasks under way, in the order in which they were put up, and the waiters. -/
structure TaskBoard where
  records : List TaskRecord
  waiters : List IdleWaiter
deriving DecidableEq

namespace TaskBoard

/-- No task and no waiter. -/
def empty : TaskBoard := ⟨[], []⟩

instance : Inhabited TaskBoard := ⟨empty⟩

/-- Whether no task is under way. -/
def isIdle (b : TaskBoard) : Bool := b.records.isEmpty

/-- The number of tasks under way. -/
def size (b : TaskBoard) : Nat := b.records.length

/-- Whether the task with a number is under way. -/
def has (b : TaskBoard) (id : Nat) : Bool := b.records.any (·.id == id)

/-- Puts a task up, in the place of the one with the same number. -/
def put (b : TaskBoard) (record : TaskRecord) : TaskBoard :=
  if b.has record.id then
    { b with records := b.records.map fun r => if r.id == record.id then record else r }
  else { b with records := b.records ++ [record] }

theorem isIdle_put (b : TaskBoard) (r : TaskRecord) : (b.put r).isIdle = false := by
  unfold put isIdle
  split
  · rename_i h
    unfold has at h
    cases hr : b.records with
    | nil => simp [hr] at h
    | cons => simp
  · simp

/-- Takes a task down, if it is there. Taking the last one down tells all who have asked. -/
def remove (b : TaskBoard) (id : Nat) : TaskBoard × Bool :=
  if b.has id then
    let records := b.records.filter (·.id != id)
    (⟨records, if records.isEmpty then b.waiters.map IdleWaiter.tell else b.waiters⟩, true)
  else (b, false)

/-- All tasks, by name and number. -/
def listing (b : TaskBoard) : List TaskRecord := b.records.mergeSort TaskRecord.le

/-! ### Waiting -/

/-- One more waiter, and its number. -/
def arrive (b : TaskBoard) : TaskBoard × Nat :=
  ({ b with waiters := b.waiters ++ [.arriving] }, b.waiters.length)

/-- The next step of a waiter, unless it sleeps or does not wait. -/
def step? (b : TaskBoard) : IdleWaiter → Option IdleWaiter
  | .arriving => some (.listening false)
  | .listening told => some (if b.isIdle then .done else .asleep told)
  | .asleep true => some .arriving
  | _ => none

/-- The board after the next step of a waiter, unless it sleeps or does not wait. -/
def attend? (b : TaskBoard) (waiter : Nat) : Option TaskBoard :=
  (b.waiters[waiter]?.bind b.step?).map fun w => { b with waiters := b.waiters.set waiter w }

/-- The board after the waiter has gone away. -/
def dismiss (b : TaskBoard) (waiter : Nat) : TaskBoard :=
  { b with waiters := b.waiters.set waiter .gone }

/-- Whether a waiter has seen that there is no task. -/
def isDone (b : TaskBoard) (waiter : Nat) : Bool := b.waiters[waiter]? == some .done

end TaskBoard

end ShardKeeper
