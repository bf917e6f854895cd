import ShardKeeper.Time

/-!
# Worlds in time

A world holds activities that act at once when they can and that otherwise wait, most of them for an
instant.

## Main definitions

* `Timed` — what a world has to tell about itself
* `Timed.Change` — something done to a world from outside at an instant
* `Timed.run` — a world left to itself until a goal is reached or an instant has come
* `Timed.advance` — a world left to itself for some time

## Design notes

Time passes only while every activity waits, and then at once up to the next instant at which one
can act or something is done from outside. Which activity acts first at an instant is decided by
`Timed.act?` alone, so a statement about every order of events is about the steps behind it and not
about `Timed.run`.
-/

namespace ShardKeeper

/-- A world that can be left to itself. -/
class Timed (σ : Type) where
  /-- The present instant. -/
  now : σ → Instant
  /-- The world after one activity has acted, or nothing when every activity waits. -/
  act? : σ → Option σ
  /-- The earliest instant for which an activity waits. -/
  due? : σ → Option Instant
  /-- The same world at a later instant. -/
  waitUntil : σ → Instant → σ
  /-- The number of steps after which a world that still runs is stopped. A world that comes to rest
  by itself gives a number that it cannot pass. -/
  patience : σ → Nat := fun _ => Nat.pow 2 40

namespace Timed

variable {σ : Type} [Timed σ]

/-- Something done to a world from outside, as soon as an instant has come. -/
structure Change (σ : Type) where
  instant : Instant
  apply : σ → σ

/-- The earliest of some instants. -/
def earliest? (instants : List (Option Instant)) : Option Instant := (instants.filterMap id).min?

/-- A world left to itself, for at most `limit` steps: until it reaches the goal, until the instant
`stop` has come, or until nothing will happen any more. At `stop` itself nobody acts. -/
def run (goal : σ → Bool) (stop : Option Instant) : Nat → List (Change σ) → σ → σ
  | 0, _, s => s
  | limit + 1, changes, s =>
    if goal s then s
    else if stop.any (· ≤ now s) then s
    else
      match changes with
      | c :: rest =>
        if c.instant ≤ now s then run goal stop limit rest (c.apply s)
        else
          match act? s with
          | some s => run goal stop limit changes s
          | none =>
            match earliest? [due? s, some c.instant, stop] with
            | some t => run goal stop limit changes (waitUntil s t)
            | none => s
      | [] =>
        match act? s with
        | some s => run goal stop limit [] s
        | none =>
          match earliest? [due? s, stop] with
          | some t => run goal stop limit [] (waitUntil s t)
          | none => s

/-- A world left to itself for the time of a pause. -/
def advance (s : σ) (d : Duration) : σ :=
  run (fun _ => false) (some (now s + d.pauseNanos)) (patience s) [] s

/-- A world left to itself until a goal is reached. Each change counts as two steps, as time may
have to pass before it. -/
def runUntil (goal : σ → Bool) (changes : List (Change σ)) (s : σ) : σ :=
  run goal none (patience s + 2 * changes.length) changes s

end Timed

/-- A timer that goes off at once and then again and again, a fixed time after it was last heard. -/
structure Ticker where
  interval : Duration
  next : Instant
deriving DecidableEq

namespace Ticker

/-- A timer that goes off for the first time at `now`. -/
def start (interval : Duration) (now : Instant) : Ticker := ⟨interval, now⟩

/-- Whether the timer has gone off. -/
def isDue (t : Ticker) (now : Instant) : Bool := t.next ≤ now

/-- The timer after it was heard at `now`. -/
def heard (t : Ticker) (now : Instant) : Ticker :=
  { t with next := now + t.interval.pauseNanos }

end Ticker

end ShardKeeper
