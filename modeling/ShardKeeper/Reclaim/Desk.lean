import ShardKeeper.Reclaim.Locks
import ShardKeeper.Reclaim.Saga

/-!
# The reclaim desk

Where reclaims are asked for. No key has more than one saga under way: a saga holds the lock of its
key from the request to its end.

## Main definitions

* `ReclaimDesk` — the locks and all sagas
* `ReclaimDesk.request` — a new saga, unless the key is held
* `ReclaimDesk.move?`, `ReclaimDesk.finishRemoval` — the next step of a saga
-/

namespace ShardKeeper

/-- The locks and all sagas, in the order of their requests. -/
structure ReclaimDesk where
  plan : ReclaimPlan
  locks : ReclaimLocks
  sagas : List Saga
deriving DecidableEq

namespace ReclaimDesk

/-- A desk where nothing was asked for. -/
def opened (plan : ReclaimPlan) : ReclaimDesk := ⟨plan, .empty, []⟩

/-- Begins a saga for a key, and returns its number; nothing when the key is held. -/
def request (d : ReclaimDesk) (key : ReclaimKey) : Option (ReclaimDesk × Nat) :=
  (d.locks.take? key).map fun locks =>
    ({ d with locks, sagas := d.sagas ++ [.ofKey key] }, d.sagas.length)

/-- The desk with a saga changed. A saga that has ended gives its key back. -/
def update (d : ReclaimDesk) (number : Nat) (saga : Saga) : ReclaimDesk :=
  { d with
    sagas := d.sagas.set number saga
    locks := if saga.isOver then d.locks.giveBack saga.key else d.locks }

/-- The next step of a saga, and what it does to the world around it; nothing when it waits or has
ended. -/
def move? (d : ReclaimDesk) (number : Nat) (now : Instant) (cancelled : Bool)
    (catalog : Option Catalog) : Option (ReclaimDesk × SagaEffect) := do
  let saga ← d.sagas[number]?
  let (saga, effect) ← saga.next? d.plan now cancelled catalog
  return (d.update number saga, effect)

/-- The desk after the removal that a saga waits for has ended, with an error text or without. -/
def finishRemoval (d : ReclaimDesk) (number : Nat) (now : Instant) (error : Option String) :
    ReclaimDesk :=
  match d.sagas[number]? with
  | none => d
  | some saga =>
    if saga.phase = .removing then d.update number (saga.afterRemoval d.plan now error) else d

/-- How each saga has ended. -/
def outcomes (d : ReclaimDesk) : List (Option ReclaimOutcome) :=
  d.sagas.map fun s => s.phase.outcome?

end ReclaimDesk

end ShardKeeper
