import ShardKeeper.Catalog.Condition
import ShardKeeper.Time

/-!
# Waiting for a condition

A wait asks for a newer catalog once and then polls the latest one at a fixed pace until the
condition holds, the time is up, or it is cancelled.

## Main definitions

* `PollSettings` — the pace and the time allowed
* `CatalogWait` — one wait
* `CatalogWait.poll` — what a look at the catalog decides
* `CatalogWait.Failure` — why a wait was in vain
* `Surroundings` — what happens around a wait that runs by itself
* `CatalogWait.run` — the whole of such a wait: when it polls, how it ends and when

## Design notes

A wait is cancelled even at an instant at which its condition holds. `poll` is all there is to a
wait, so a wait among other activities takes the same decisions as one that runs by itself.
-/

namespace ShardKeeper

/-- How often the catalog is looked at, and for how long. -/
structure PollSettings where
  interval : Duration
  timeout : Duration
deriving DecidableEq

/-- A wait for a condition that began at `started`. -/
structure CatalogWait where
  condition : CatalogCondition
  settings : PollSettings
  started : Instant
deriving DecidableEq

namespace CatalogWait

/-- The instant at which the time is up, which the clock can tell if it is no later than
`Instant.latest`. -/
def deadline (w : CatalogWait) : Instant := w.started + w.settings.timeout.nanos

/-- The instant of the next look after one at `now`, which comes before the deadline. -/
def nextPoll (w : CatalogWait) (now : Instant) : Instant :=
  now + min w.settings.interval.pauseNanos (w.deadline - now)

/-- What a look at the catalog decides. -/
inductive Decision where
  | met
  | interrupted
  /-- The time is up; so long the wait has taken, in nanoseconds. -/
  | timedOut (waited : Nat)
  /-- Look again at an instant, or when cancelled. -/
  | again (next : Instant)
deriving DecidableEq

/-- Why a wait was in vain. -/
inductive Failure where
  /-- The condition did not hold within a time, in nanoseconds. -/
  | timedOut (condition : CatalogCondition) (waited : Nat)
  | interrupted (condition : CatalogCondition)
deriving DecidableEq

/-- The text of a wait in vain. -/
def Failure.message : Failure → String
  | .timedOut condition waited =>
    "timed out after " ++ Duration.nanosText waited ++ " waiting for " ++ condition.text
  | .interrupted condition => "interrupted while waiting for " ++ condition.text

/-- One look at the catalog at the instant `now`. -/
def poll (w : CatalogWait) (now : Instant) (cancelled : Bool) (catalog : Option Catalog) :
    Decision :=
  if cancelled then .interrupted
  else if w.condition.holds catalog then .met
  else if w.deadline ≤ now then .timedOut (now - w.started)
  else .again (w.nextPoll now)

end CatalogWait

/-! ### A wait that runs by itself -/

/-- What happens around an activity: the latest catalog at each instant, and the instant of
cancellation, if there is one. -/
structure Surroundings where
  catalogAt : Instant → Option Catalog
  cancelAt : Option Instant

namespace Surroundings

/-- Whether cancellation has come by an instant. -/
def cancelledBy (s : Surroundings) (now : Instant) : Bool := s.cancelAt.any (· ≤ now)

/-- The instant of cancellation, if it comes after `now` and no later than `next`. -/
def cancelWithin (s : Surroundings) (now next : Instant) : Option Instant :=
  s.cancelAt.filter fun c => now < c && c ≤ next

end Surroundings

namespace CatalogWait

/-- How a wait ends. A wait that polls without pause in between, and whose condition does not hold,
never does. -/
inductive Ending where
  | met
  | interrupted
  | timedOut (waited : Nat)
  | never
deriving DecidableEq

/-- A whole wait: the instants at which it asked for a newer catalog and at which it looked at the
latest one, its end, and the instant of the end. -/
structure Run where
  requests : List Instant
  polls : List Instant
  ending : Ending
  instant : Instant
deriving DecidableEq

/-- The wait from its look at `now` on. -/
def runFrom (w : CatalogWait) (s : Surroundings) (now : Instant) : Run :=
  match w.poll now (s.cancelledBy now) (s.catalogAt now) with
  | .met => ⟨[], [now], .met, now⟩
  | .interrupted => ⟨[], [], .interrupted, now⟩
  | .timedOut waited => ⟨[], [now], .timedOut waited, now⟩
  | .again next =>
    match s.cancelWithin now next with
    | some c => ⟨[], [now], .interrupted, c⟩
    | none =>
      if now < next ∧ next ≤ w.deadline then
        let rest := runFrom w s next
        { rest with polls := now :: rest.polls }
      else ⟨[], [now], .never, now⟩
termination_by w.deadline - now
decreasing_by
  rename_i h
  obtain ⟨h₁, h₂⟩ := h
  show w.deadline - next < w.deadline - now
  exact Nat.sub_lt_sub_left (Nat.lt_of_lt_of_le h₁ h₂) h₁

/-- The whole of a wait in its surroundings: a request for a newer catalog, and then look after
look. -/
def run (w : CatalogWait) (s : Surroundings) : Run :=
  let rest := runFrom w s w.started
  { rest with requests := w.started :: rest.requests }

end CatalogWait

end ShardKeeper
