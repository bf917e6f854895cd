import ShardKeeper.Catalog.Wait
import ShardKeeper.Reclaim.Key
import ShardKeeper.Settings.Basic

/-!
# Reclaim sagas

A saga removes the data of one key. Each attempt waits until the catalog shows that the engine has
let go of the data and then removes it; a wait in vain and a failed removal both lead to the next
attempt, after a pause.

## Main definitions

* `ReclaimPlan` — what all sagas have in common
* `ReclaimOutcome` — how a saga ends
* `SagaPhase`, `Saga.next?`, `Saga.afterRemoval` — a saga step by step
* `ReclaimPlan.run` — the whole of a saga in given surroundings

## Design notes

A removal begins in the same step as the look at the catalog that allows it, so nothing can come in
between. It may take its time after that: its result is a step of its own.
-/

namespace ShardKeeper

/-- How often the removal of a key is tried, and how each attempt waits. -/
structure ReclaimPlan where
  settings : ReclaimSettings
  polling : PollSettings
deriving DecidableEq

/-- How a saga ends. -/
inductive ReclaimOutcome where
  | removed (attempts : Nat)
  /-- Every attempt failed, and the data is left behind. -/
  | abandoned (attempts : Nat) (lastError : String)
  | interrupted
  /-- No attempt or no pause between attempts is allowed; nothing was tried. -/
  | invalidSettings
deriving DecidableEq

/-- Where a saga stands. -/
inductive SagaPhase where
  /-- It has not begun. -/
  | fresh
  /-- It is about to begin an attempt. -/
  | starting
  /-- It waits for the key's condition and looks at the catalog next at an instant. -/
  | looking (wait : CatalogWait) (next : Instant)
  /-- The removal is under way. -/
  | removing
  /-- The attempt has failed, and the next one begins at an instant. -/
  | pausing (next : Instant)
  | ended (outcome : ReclaimOutcome)
deriving DecidableEq

/-- How a saga has ended. -/
def SagaPhase.outcome? : SagaPhase → Option ReclaimOutcome
  | .ended outcome => some outcome
  | _ => none

/-- The instant a saga waits for. -/
def SagaPhase.due? : SagaPhase → Option Instant
  | .looking _ next | .pausing next => some next
  | _ => none

/-- What a saga does to the world around it in one step. -/
inductive SagaEffect where
  | nothing
  /-- It asks for a newer catalog. -/
  | request
  /-- It begins to remove the data. -/
  | remove
deriving DecidableEq

/-- The removal of the data of one key. Attempts are counted from one. -/
structure Saga where
  key : ReclaimKey
  attempt : Nat
  phase : SagaPhase
deriving DecidableEq

namespace Saga

/-- A saga that has not begun. -/
def ofKey (key : ReclaimKey) : Saga := ⟨key, 1, .fresh⟩

/-- Whether the saga has ended. -/
def isOver (s : Saga) : Bool := s.phase.outcome?.isSome

/-- The saga after its attempt has failed. -/
def afterFailure (s : Saga) (plan : ReclaimPlan) (now : Instant) (error : String) : Saga :=
  if s.attempt < plan.settings.maxAttempts then
    { s with phase := .pausing (now + plan.settings.pause.pauseNanos) }
  else { s with phase := .ended (.abandoned plan.settings.maxAttempts error) }

/-- The saga after the removal has ended, with an error text or without. -/
def afterRemoval (s : Saga) (plan : ReclaimPlan) (now : Instant) (error : Option String) : Saga :=
  match error with
  | none => { s with phase := .ended (.removed s.attempt) }
  | some e => s.afterFailure plan now e

/-- The saga after a look at the catalog, and whether the removal begins. -/
def look (s : Saga) (plan : ReclaimPlan) (wait : CatalogWait) (now : Instant) (cancelled : Bool)
    (catalog : Option Catalog) : Saga × SagaEffect :=
  match wait.poll now cancelled catalog with
  | .interrupted => ({ s with phase := .ended .interrupted }, .nothing)
  | .met => ({ s with phase := .removing }, .remove)
  | .timedOut waited =>
    (s.afterFailure plan now (CatalogWait.Failure.timedOut wait.condition waited).message, .nothing)
  | .again next => ({ s with phase := .looking wait next }, .nothing)

/-- The next step of a saga; nothing when it waits, for an instant or for the removal, or has
ended. -/
def next? (s : Saga) (plan : ReclaimPlan) (now : Instant) (cancelled : Bool)
    (catalog : Option Catalog) : Option (Saga × SagaEffect) :=
  match s.phase with
  | .fresh =>
    if plan.settings.areUsable then some ({ s with phase := .starting }, .nothing)
    else some ({ s with phase := .ended .invalidSettings }, .nothing)
  | .starting =>
    if cancelled then some ({ s with phase := .ended .interrupted }, .nothing)
    else some ({ s with phase := .looking ⟨s.key.condition, plan.polling, now⟩ now }, .request)
  | .looking wait next =>
    if cancelled || decide (next ≤ now) then some (s.look plan wait now cancelled catalog) else none
  | .pausing next =>
    if cancelled then some ({ s with phase := .ended .interrupted }, .nothing)
    else if next ≤ now then
      some ({ s with attempt := s.attempt + 1, phase := .starting }, .nothing)
    else none
  | .removing | .ended _ => none

end Saga

/-! ### A saga that runs by itself -/

/-- A whole saga: the instants at which removals began, its outcome, if it has one, and the instant
of the end. Without a pause between looks at the catalog it may have no end. -/
structure ReclaimPlan.Run where
  removals : List Instant
  outcome : Option ReclaimOutcome
  instant : Instant
deriving DecidableEq

namespace ReclaimPlan

variable (plan : ReclaimPlan) (key : ReclaimKey) (s : Surroundings)

/-- The saga from its `attempt`-th attempt on, which begins at `now`. The n-th removal ends with the
n-th of `results`, an error text or nothing, and without an error when there is none. -/
def runFrom (results : List (Option String)) (attempt : Nat) (now : Instant) : Run :=
  let wait : CatalogWait := ⟨key.condition, plan.polling, now⟩
  let waited := wait.run s
  /- The attempt has failed at the instant at which its wait ended. -/
  let failed (removals : List Instant) (results : List (Option String)) (error : String) : Run :=
    if attempt < plan.settings.maxAttempts then
      let next := waited.instant + plan.settings.pause.pauseNanos
      match s.cancelAt.filter (· ≤ next) with
      | some c => ⟨removals, some .interrupted, max c waited.instant⟩
      | none =>
        let rest := runFrom results (attempt + 1) next
        { rest with removals := removals ++ rest.removals }
    else ⟨removals, some (.abandoned plan.settings.maxAttempts error), waited.instant⟩
  match waited.ending with
  | .interrupted => ⟨[], some .interrupted, waited.instant⟩
  | .never => ⟨[], none, waited.instant⟩
  | .timedOut time =>
    failed [] results (CatalogWait.Failure.timedOut wait.condition time).message
  | .met =>
    match results.head?.join with
    | none => ⟨[waited.instant], some (.removed attempt), waited.instant⟩
    | some e => failed [waited.instant] results.tail e
termination_by plan.settings.maxAttempts - attempt

/-- The whole of a saga that begins at the instant zero. -/
def run (results : List (Option String)) : Run :=
  if plan.settings.areUsable then plan.runFrom key s results 1 0
  else ⟨[], some .invalidSettings, 0⟩

end ReclaimPlan

end ShardKeeper
