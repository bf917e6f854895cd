import ShardKeeper.Time

/-!
# Jobs

Tasks whose course is laid down in advance.

## Main definitions

* `JobPlan` — what a job waits for
* `JobEnding` — how it ended
* `JobPhase.next?` — the next step of a job, unless it waits
-/

namespace ShardKeeper

/-- What a job waits for before it ends. -/
inductive JobPlan where
  | nothing
  /-- A fixed time. -/
  | time (d : Duration)
  /-- Its cancellation, and then a fixed time. -/
  | cancellation (cleanup : Duration)
  /-- A fixed time or its cancellation, whichever comes first. -/
  | either (d : Duration)
  /-- Something that never comes. -/
  | forever
  /-- It fails as soon as it starts. -/
  | failure
deriving DecidableEq

/-- How a job ended. -/
inductive JobEnding where
  | done
  /-- It came to its end after it was cancelled. -/
  | doneAfterCancel
  /-- It gave up because it was cancelled. -/
  | cancelled
  | failed
  /-- It was stopped from outside. -/
  | aborted
deriving DecidableEq

/-- Whether a job that ended this way came to the end of its own course. -/
def JobEnding.isRegular : JobEnding → Bool
  | .failed | .aborted => false
  | _ => true

/-- Where a job stands. -/
inductive JobPhase where
  /-- It has not begun. -/
  | fresh
  /-- It waits for an instant. -/
  | waiting (next : Instant)
  /-- It waits for its cancellation, and then for a fixed time. -/
  | heeding (cleanup : Duration)
  /-- It waits for an instant or its cancellation. -/
  | either (next : Instant)
  /-- It waits for something that never comes. -/
  | stuck
  | ended (how : JobEnding)
deriving DecidableEq

namespace JobPhase

/-- The end of a job that has done all it had to. -/
def finished (cancelled : Bool) : JobPhase := .ended (if cancelled then .doneAfterCancel else .done)

/-- The first phase of a job that begins. -/
def begin (plan : JobPlan) (now : Instant) (cancelled : Bool) : JobPhase :=
  match plan with
  | .nothing => finished cancelled
  | .time d => .waiting (now + d.pauseNanos)
  | .cancellation cleanup => .heeding cleanup
  | .either d => .either (now + d.pauseNanos)
  | .forever => .stuck
  | .failure => .ended .failed

/-- The next phase of a job, unless it waits or has ended. -/
def next? (plan : JobPlan) (phase : JobPhase) (now : Instant) (cancelled : Bool) :
    Option JobPhase :=
  match phase with
  | .fresh => some (begin plan now cancelled)
  | .waiting t => if t ≤ now then some (finished cancelled) else none
  | .heeding cleanup => if cancelled then some (.waiting (now + cleanup.pauseNanos)) else none
  | .either t =>
    if cancelled then some (.ended .cancelled)
    else if t ≤ now then some (.ended .done)
    else none
  | .stuck | .ended _ => none

/-- The instant a job waits for. -/
def due? : JobPhase → Option Instant
  | .waiting t | .either t => some t
  | _ => none

/-- How a job has ended. -/
def ending? : JobPhase → Option JobEnding
  | .ended how => some how
  | _ => none

end JobPhase

end ShardKeeper
