import ShardKeeper.Searcher.Backoff
import ShardKeeper.Searcher.Message

/-!
# Repeated calls

A call is repeated while its answers are retryable, with the pauses of a policy in between, until
the attempts are used up or it is cancelled during a pause.

## Main definitions

* `Retry` — a call under way
* `Retry.respond` — what an answer decides
* `CallResult`, `CallResult.toExcept` — the last answer and how the call ended
* `CallError` — why a call did not succeed
* `Retry.run` — a call that runs by itself, against given answers

The first attempt is always made, also when the call is cancelled before it.
-/

namespace ShardKeeper

/-- How a call ended. -/
inductive CallOutcome where
  | success
  /-- The engine refused the request for good. -/
  | fatal
  /-- Every attempt was answered with a retryable failure. -/
  | exhausted
  /-- It was cancelled between two attempts. -/
  | interrupted
deriving DecidableEq

/-- The last answer to a call, and how the call ended. -/
structure CallResult (ρ : Type) where
  response : ρ
  outcome : CallOutcome
  attempts : Nat
  /-- The nanoseconds from the first attempt to the end. -/
  elapsed : Nat
deriving DecidableEq

/-- Why a call did not succeed. The label names the call. -/
inductive CallError where
  | fatal (label : String) (code : ErrorCode) (message : String)
  | exhausted (label : String) (attempts : Nat) (code : ErrorCode) (message : String)
  | interrupted (label : String) (attempts : Nat)
deriving DecidableEq

/-- The text of a failed call. -/
def CallError.message : CallError → String
  | .fatal label code message =>
    "searcher rejected " ++ label ++ ": " ++ code.title ++ ": " ++ message
  | .exhausted label attempts code message =>
    label ++ " still failing after " ++ toString attempts ++ " attempts: " ++ code.title ++ ": "
      ++ message
  | .interrupted label attempts =>
    label ++ " interrupted after " ++ toString attempts ++ " attempts"

/-- Whether the call was cancelled. -/
def CallError.isInterrupted : CallError → Bool
  | .interrupted .. => true
  | _ => false

/-- The answer to a call that succeeded, or why it did not. -/
def CallResult.toExcept {ρ : Type} [Response ρ] (r : CallResult ρ) (label : String) :
    Except CallError ρ :=
  let code := (Response.code r.response).getD .unknown
  match r.outcome with
  | .success => .ok r.response
  | .fatal => .error (.fatal label code (Response.message r.response))
  | .exhausted => .error (.exhausted label r.attempts code (Response.message r.response))
  | .interrupted => .error (.interrupted label r.attempts)

/-- A call under way. -/
structure Retry where
  policy : BackoffPolicy
  started : Instant
  /-- The attempts answered so far. -/
  attempts : Nat
  pauses : BackoffPolicy.Pauses
deriving DecidableEq

namespace Retry

/-- A call that begins. -/
def start (policy : BackoffPolicy) (now : Instant) : Retry := ⟨policy, now, 0, policy.pauses⟩

/-- What an answer decides. -/
inductive Decision (ρ : Type) where
  | finish (result : CallResult ρ)
  /-- Pause, then make another attempt. -/
  | pause (delay : Duration) (next : Retry)

variable {ρ : Type} [Response ρ]

/-- The result of a call that ends now. -/
def finish (r : Retry) (now : Instant) (response : ρ) (outcome : CallOutcome) : CallResult ρ :=
  ⟨response, outcome, r.attempts, now - r.started⟩

/-- The answer to the attempt under way. -/
def respond (r : Retry) (now : Instant) (response : ρ) : Decision ρ :=
  let r := { r with attempts := r.attempts + 1 }
  match Response.verdict response with
  | .success => .finish (r.finish now response .success)
  | .fatal => .finish (r.finish now response .fatal)
  | .retryable =>
    match r.policy.take? r.pauses with
    | none => .finish (r.finish now response .exhausted)
    | some (delay, pauses) => .pause delay { r with pauses }

theorem remaining_of_respond {r next : Retry} {now : Instant} {response : ρ} {d : Duration}
    (h : r.respond now response = .pause d next) :
    next.pauses.remaining + 1 = r.pauses.remaining := by
  unfold respond at h
  dsimp only at h
  split at h
  · simp at h
  · simp at h
  · split at h
    · simp at h
    · rename_i ht
      simp only [Decision.pause.injEq] at h
      rw [← h.2]
      exact BackoffPolicy.take?_remaining ht

/-! ### A call that runs by itself -/

/-- What the engine answers to the attempts of a call, and how many nanoseconds each answer
takes. -/
abbrev Answers (ρ : Type) := Nat → ρ × Nat

/-- A whole call: the instants at which attempts began, and the result. -/
structure Run (ρ : Type) where
  calls : List Instant
  result : CallResult ρ

/-- The call from the attempt on that begins at `now`. -/
def runFrom (answers : Answers ρ) (cancelAt : Option Instant) (r : Retry) (now : Instant) : Run ρ :=
  let (response, latency) := answers r.attempts
  let answered := now + latency
  match _h : r.respond answered response with
  | .finish result => ⟨[now], result⟩
  | .pause delay next =>
    let resumed := answered + delay.pauseNanos
    match cancelAt.filter (· ≤ resumed) with
    | some c => ⟨[now], next.finish (max c answered) response .interrupted⟩
    | none =>
      let rest := runFrom answers cancelAt next resumed
      { rest with calls := now :: rest.calls }
termination_by r.pauses.remaining
decreasing_by
  have := remaining_of_respond _h
  omega

/-- The whole of a call that begins at the instant zero. -/
def run (policy : BackoffPolicy) (answers : Answers ρ) (cancelAt : Option Instant) : Run ρ :=
  runFrom answers cancelAt (start policy 0) 0

end Retry

end ShardKeeper
