import ShardKeeper.Time

/-!
# Backoff

The pauses between the attempts of one call grow by a factor and stop at a cap.

## Main definitions

* `BackoffPolicy` — first pause, growth, cap and number of attempts
* `BackoffPolicy.Pauses` — the pauses still to come
* `BackoffPolicy.delays` — all of them
-/

namespace ShardKeeper

/-- How a call is repeated. -/
structure BackoffPolicy where
  /-- The pause before the second attempt. -/
  base : Duration
  /-- The factor from one pause to the next. -/
  multiplier : Nat
  /-- The greatest number of attempts, the first included. -/
  maxAttempts : Nat
  /-- The longest pause. -/
  maxDelay : Duration
deriving DecidableEq

namespace BackoffPolicy

/-- The pauses still to come: how many, and how long the next one is. -/
structure Pauses where
  next : Duration
  remaining : Nat
deriving DecidableEq

/-- All pauses of a policy. -/
def pauses (p : BackoffPolicy) : Pauses := ⟨p.base.shorter p.maxDelay, p.maxAttempts - 1⟩

/-- The pause after one of length `d`. -/
def grow (p : BackoffPolicy) (d : Duration) : Duration := (d.scale p.multiplier).shorter p.maxDelay

/-- The next pause and those after it. -/
def take? (p : BackoffPolicy) (s : Pauses) : Option (Duration × Pauses) :=
  match s.remaining with
  | 0 => none
  | remaining + 1 => some (s.next, ⟨p.grow s.next, remaining⟩)

/-- The first `count` of the pauses that begin with `next`. -/
def delaysFrom (p : BackoffPolicy) (next : Duration) : Nat → List Duration
  | 0 => []
  | count + 1 => next :: delaysFrom p (p.grow next) count

/-- The first `count` pauses of a policy, or all of them if there are fewer. -/
def firstDelays (p : BackoffPolicy) (count : Nat) : List Duration :=
  p.delaysFrom p.pauses.next (min count p.pauses.remaining)

/-- All pauses of a policy, in order. -/
def delays (p : BackoffPolicy) : List Duration := p.delaysFrom p.pauses.next p.pauses.remaining

theorem take?_remaining {p : BackoffPolicy} {s t : Pauses} {d : Duration}
    (h : p.take? s = some (d, t)) : t.remaining + 1 = s.remaining := by
  unfold take? at h
  split at h
  · simp at h
  · simp only [Option.some.injEq, Prod.mk.injEq] at h
    rw [← h.2]
    simp [*]

end BackoffPolicy

end ShardKeeper
