import ShardKeeper.Searcher.Retry

/-!
# Calls under way

## Main definitions

* `CallPhase`, `Call` — a repeated call, between its steps
* `Call.sent`, `Call.next?` — its steps

A call waits for each answer however long it takes, and heeds its cancellation only in a pause.
-/

namespace ShardKeeper

/-- Where a call stands. -/
inductive CallPhase (ρ : Type) where
  /-- It is about to make an attempt. -/
  | sending
  /-- The answer comes at an instant. -/
  | answering (response : ρ) (due : Instant)
  /-- It pauses until an instant; `last` is the latest answer. -/
  | pausing (last : ρ) (next : Instant)
  | ended (result : CallResult ρ)
deriving DecidableEq

/-- A call that is repeated while its answers are retryable. -/
structure Call (ρ : Type) where
  retry : Retry
  phase : CallPhase ρ
deriving DecidableEq

namespace Call

variable {ρ : Type} [Response ρ]

/-- A call that begins. -/
def start (policy : BackoffPolicy) (now : Instant) : Call ρ := ⟨.start policy now, .sending⟩

/-- The call after an attempt was sent whose answer takes so long. -/
def sent (c : Call ρ) (response : ρ) (latency : Duration) (now : Instant) : Call ρ :=
  { c with phase := .answering response (now + latency.pauseNanos) }

/-- The next step of a call; nothing when it waits, has to send an attempt, or has ended. -/
def next? (c : Call ρ) (now : Instant) (cancelled : Bool) : Option (Call ρ) :=
  match c.phase with
  | .answering response due =>
    if due ≤ now then
      match c.retry.respond now response with
      | .finish result => some { c with phase := .ended result }
      | .pause delay retry => some ⟨retry, .pausing response (now + delay.pauseNanos)⟩
    else none
  | .pausing last next =>
    if cancelled then some { c with phase := .ended (c.retry.finish now last .interrupted) }
    else if next ≤ now then some { c with phase := .sending }
    else none
  | .sending | .ended _ => none

/-- Whether an attempt is to be sent. -/
def isSending (c : Call ρ) : Bool :=
  match c.phase with
  | .sending => true
  | _ => false

/-- The instant a call waits for. -/
def due? (c : Call ρ) : Option Instant :=
  match c.phase with
  | .answering _ due => some due
  | .pausing _ next => some next
  | _ => none

/-- The result of a call that has ended. -/
def result? (c : Call ρ) : Option (CallResult ρ) :=
  match c.phase with
  | .ended result => some result
  | _ => none

end Call

end ShardKeeper
