import Mathlib.Order.Bounds.Basic
import ShardKeeper.Proofs.Task.Workplace
import ShardKeeper.Proofs.Timed

/-!
# Shutting a workplace down

A shutdown cancels every task.  From then on it is laid down for each job when it
comes to its own end, if ever: a job that heeds its cancellation some time later,
one that waits for an instant at that instant.  The shutdown returns when the last
job has come to its end, or when its time is over, and says how many tasks are left.

## Main definitions

* `Job.endsAt?`, `Job.endsBy` — when a job that is cancelled comes to its own end.
* `JobPhase.actsLeft`, `Workplace.actsLeft` — how many steps are still possible.
* `Workplace.Winding` — a workplace on its way down.

## Main results

* `JobPhase.endsAt?_next?`, `JobPhase.endsAt?_of_waits` — a job keeps to the end laid down for it.
* `Workplace.Winding.act`, `Workplace.Winding.wait` — so does a workplace, and it makes progress.
* `Workplace.shutdown_in_any_order` — the order in which jobs act makes no difference.
* `Workplace.shutdown_by_ends` — when a shutdown returns, and with what.
-/

namespace ShardKeeper

/-! ### The ends of jobs -/

/-- The instant at which a job comes to its own end, if it has been cancelled by now. -/
def JobPhase.endsAt? (plan : JobPlan) (now : Instant) : JobPhase → Option Instant
  | .fresh =>
    match plan with
    | .nothing | .either _ => some now
    | .time d | .cancellation d => some (now + d.pauseNanos)
    | .forever | .failure => none
  | .waiting t => some (max t now)
  | .heeding cleanup => some (now + cleanup.pauseNanos)
  | .either _ => some now
  | .stuck | .ended _ => none

/-- The instant at which a job comes to its own end, if it has been cancelled by now. -/
def Job.endsAt? (j : Job) (now : Instant) : Option Instant := j.phase.endsAt? j.plan now

/-- Whether a job that has been cancelled by now has come to its own end by an instant. -/
def Job.endsBy (j : Job) (now t : Instant) : Bool := j.isFinished || (j.endsAt? now).any (· ≤ t)

/-- The most steps that a job can still take. -/
def JobPhase.actsLeft : JobPhase → Nat
  | .fresh => 3
  | .heeding _ => 2
  | .waiting _ | .either _ => 1
  | .stuck | .ended _ => 0

namespace JobPhase

variable {plan : JobPlan} {phase phase' : JobPhase} {now later t : Instant} {cancelled : Bool}

theorem le_endsAt? (h : phase.endsAt? plan now = some t) : now ≤ t := by
  cases phase with
  | fresh =>
      cases plan with
      | nothing | either => exact Nat.le_of_eq (Option.some.inj h)
      | time d | cancellation d =>
          obtain rfl := Option.some.inj h
          exact Nat.le_add_right ..
      | forever | failure => cases h
  | waiting =>
      obtain rfl := Option.some.inj h
      exact Nat.le_max_right ..
  | heeding cleanup =>
      obtain rfl := Option.some.inj h
      exact Nat.le_add_right ..
  | either => exact Nat.le_of_eq (Option.some.inj h)
  | stuck => cases h
  | ended => cases h

/-- **A job keeps to the end laid down for it** in what it does: it comes to its end now, or goes on
towards the same end. -/
theorem endsAt?_next? (h : phase.next? plan now true = some phase') :
    (phase'.ending?.any JobEnding.isRegular = true ∧ phase.endsAt? plan now = some now) ∨
      (phase'.ending?.any JobEnding.isRegular = false ∧
        phase'.endsAt? plan now = phase.endsAt? plan now) := by
  cases phase with
  | fresh =>
      obtain rfl := Option.some.inj h
      cases plan with
      | nothing => exact .inl ⟨rfl, rfl⟩
      | time d => exact .inr ⟨rfl, congrArg some (Nat.max_eq_left (Nat.le_add_right ..))⟩
      | cancellation => exact .inr ⟨rfl, rfl⟩
      | either => exact .inr ⟨rfl, rfl⟩
      | forever => exact .inr ⟨rfl, rfl⟩
      | failure => exact .inr ⟨rfl, rfl⟩
  | waiting t =>
      obtain ⟨hle, heq⟩ := Option.ite_none_right_eq_some.mp h
      obtain rfl := Option.some.inj heq
      exact .inl ⟨rfl, congrArg some (Nat.max_eq_right hle)⟩
  | heeding cleanup =>
      obtain rfl := Option.some.inj h
      exact .inr ⟨rfl, congrArg some (Nat.max_eq_left (Nat.le_add_right ..))⟩
  | either t =>
      obtain rfl := Option.some.inj h
      exact .inl ⟨rfl, rfl⟩
  | stuck => cases h
  | ended => cases h

/-- **A job keeps to the end laid down for it** while it waits. -/
theorem endsAt?_of_waits (h : phase.next? plan now true = none) (hle : now ≤ later)
    (hdue : ∀ t, phase.due? = some t → later ≤ t) :
    phase.endsAt? plan later = phase.endsAt? plan now := by
  cases phase with
  | fresh => cases h
  | waiting t =>
      have ht := hdue t rfl
      exact congrArg some (by rw [Nat.max_eq_left ht, Nat.max_eq_left (Nat.le_trans hle ht)])
  | heeding => cases h
  | either => cases h
  | stuck => rfl
  | ended => rfl

/-- A job that waits for an instant waits until it has come, and then goes on. -/
theorem isSome_next?_of_due? (h : phase.due? = some t) (hle : t ≤ now) :
    (phase.next? plan now cancelled).isSome = true := by
  cases phase with
  | waiting =>
      obtain rfl := Option.some.inj h
      rw [next?, if_pos hle]
      rfl
  | either =>
      obtain rfl := Option.some.inj h
      rw [next?, if_pos hle]
      cases cancelled <;> rfl
  | _ => cases h

theorem actsLeft_begin_lt (plan : JobPlan) (now : Instant) (cancelled : Bool) :
    (begin plan now cancelled).actsLeft < 3 := by
  cases plan with
  | nothing => exact Nat.zero_lt_succ 2
  | time => exact Nat.succ_lt_succ (Nat.zero_lt_succ 1)
  | cancellation => exact Nat.lt_succ_self 2
  | either => exact Nat.succ_lt_succ (Nat.zero_lt_succ 1)
  | forever => exact Nat.zero_lt_succ 2
  | failure => exact Nat.zero_lt_succ 2

theorem actsLeft_next? (h : phase.next? plan now cancelled = some phase') :
    phase'.actsLeft < phase.actsLeft := by
  cases phase with
  | fresh =>
      obtain rfl := Option.some.inj h
      exact actsLeft_begin_lt ..
  | waiting =>
      obtain ⟨-, heq⟩ := Option.ite_none_right_eq_some.mp h
      obtain rfl := Option.some.inj heq
      exact Nat.zero_lt_one
  | heeding =>
      obtain ⟨-, heq⟩ := Option.ite_none_right_eq_some.mp h
      obtain rfl := Option.some.inj heq
      exact Nat.lt_succ_self 1
  | either t =>
      cases cancelled with
      | true =>
          obtain rfl := Option.some.inj h
          exact Nat.zero_lt_one
      | false =>
          obtain ⟨-, heq⟩ := Option.ite_none_right_eq_some.mp h
          obtain rfl := Option.some.inj heq
          exact Nat.zero_lt_one
  | stuck => cases h
  | ended => cases h

theorem actsLeft_le (phase : JobPhase) : phase.actsLeft ≤ 3 := by
  cases phase with
  | fresh => exact Nat.le_refl 3
  | heeding => exact Nat.le_succ 2
  | _ => exact Nat.le_of_ble_eq_true rfl

end JobPhase

namespace Job

variable {j j₀ : Job} {start now later t : Instant}

theorem endsBy_eq_true_iff :
    j.endsBy now t = true ↔ j.isFinished = true ∨ ∃ e, j.endsAt? now = some e ∧ e ≤ t := by
  rw [endsBy, Bool.or_eq_true, Option.any_eq_true]
  simp only [decide_eq_true_iff]

/-- What has become by now of a job that was cancelled at `start`: it has come to its own end in
time, or still has to come to the end that was laid down for it. -/
inductive Keeps (start now : Instant) (j₀ j : Job) : Prop where
  | finished (h : j.isFinished = true) (hends : j₀.endsBy start now = true)
  | goesOn (h : j.isFinished = false) (h₀ : j₀.isFinished = false)
      (hends : j.endsAt? now = j₀.endsAt? start)

theorem Keeps.refl (start : Instant) (j : Job) : Keeps start start j j := by
  cases h : j.isFinished with
  | true => exact .finished h (endsBy_eq_true_iff.mpr (.inl h))
  | false => exact .goesOn h h rfl

theorem Keeps.next (h : Keeps start now j₀ j) {phase : JobPhase}
    (hnext : j.phase.next? j.plan now true = some phase) : Keeps start now j₀ { j with phase } := by
  have hunfinished := isFinished_eq_false (JobPhase.ending?_of_next? hnext)
  cases h with
  | finished hfinished =>
      rw [hunfinished] at hfinished
      cases hfinished
  | goesOn _ h₀ hends =>
      rcases JobPhase.endsAt?_next? hnext with ⟨hfinished, hnow⟩ | ⟨hgoes, hsame⟩
      · exact .finished hfinished
          (endsBy_eq_true_iff.mpr (.inr ⟨now, hends.symm.trans hnow, Nat.le_refl _⟩))
      · exact .goesOn hgoes h₀ (hsame.trans hends)

theorem Keeps.wait (h : Keeps start now j₀ j) (hwaits : j.phase.next? j.plan now true = none)
    (hle : now ≤ later) (hdue : ∀ t, j.phase.due? = some t → later ≤ t) :
    Keeps start later j₀ j := by
  cases h with
  | finished hfinished hends =>
      refine .finished hfinished (endsBy_eq_true_iff.mpr ?_)
      exact (endsBy_eq_true_iff.mp hends).imp_right fun ⟨e, he, hlate⟩ =>
        ⟨e, he, Nat.le_trans hlate hle⟩
  | goesOn hgoes h₀ hends =>
      exact .goesOn hgoes h₀ ((JobPhase.endsAt?_of_waits hwaits hle hdue).trans hends)

/-- A job that goes on did not have to come to its end earlier. -/
theorem Keeps.endsBy_eq_false (h : Keeps start now j₀ j) (hgoes : j.isFinished = false)
    (ht : t < now) : j₀.endsBy start t = false := by
  cases h with
  | finished hfinished =>
      rw [hgoes] at hfinished
      cases hfinished
  | goesOn _ h₀ hends =>
      refine Bool.eq_false_iff.mpr fun hby => ?_
      rcases endsBy_eq_true_iff.mp hby with hfinished | ⟨e, he, hle⟩
      · rw [h₀] at hfinished
        cases hfinished
      · have hnow := JobPhase.le_endsAt? (hends.trans he)
        exact Nat.not_le_of_lt (Nat.lt_of_lt_of_le ht hnow) hle

/-- A job that does not have to come to its end just now has come to its end if it had to. -/
theorem Keeps.isFinished_eq (h : Keeps start now j₀ j)
    (hends : j.isFinished = true ∨ j₀.endsAt? start ≠ some now) :
    j.isFinished = j₀.endsBy start now := by
  cases h with
  | finished hfinished hby => rw [hfinished, hby]
  | goesOn hgoes h₀ hsame =>
      rw [hgoes]
      refine (Bool.eq_false_iff.mpr fun hby => ?_).symm
      rcases endsBy_eq_true_iff.mp hby with hfinished | ⟨e, he, hle⟩
      · rw [h₀] at hfinished
        cases hfinished
      · have hnow := JobPhase.le_endsAt? (hsame.trans he)
        obtain rfl := Nat.le_antisymm hnow hle
        exact hends.elim (fun hfinished => Bool.false_ne_true (hgoes.symm.trans hfinished))
          fun hne => hne he

end Job

namespace Workplace

variable {w m : Workplace} {started : List TaskRecord} {jobs : List Job}
  {start stop t : Instant} {waiter place : Nat} {j : Job}

/-! ### Steps of a workplace -/

/-- Whether some job can take a step. -/
def canAct (w : Workplace) : Bool :=
  w.jobs.any fun j => (j.phase.next? j.plan w.clock (w.group.isCancelled j.ticket.token)).isSome

/-- The most steps that are still possible, if no task is started: time passes once before each
step of a job. -/
def actsLeft (w : Workplace) : Nat :=
  2 * (w.jobs.map (·.phase.actsLeft)).sum + w.group.board.actsLeft + (!w.canAct).toNat

theorem actsLeft_lt_stepBound (w : Workplace) : w.actsLeft < w.stepBound := by
  have hjobs : (w.jobs.map (·.phase.actsLeft)).sum ≤ 3 * w.jobs.length :=
    sum_map_le fun j _ => j.phase.actsLeft_le
  have hwaiters := w.group.board.actsLeft_le
  have hflag := (!w.canAct).toNat_le
  rw [actsLeft, stepBound]
  omega

/-- Who acts at a workplace: somebody who waits, or a job. -/
theorem act?_cases (h : Timed.act? w = some m) :
    (∃ waiter board, w.group.board.attend? waiter = some board ∧
        m = { w with group := { w.group with board } }) ∨
      ∃ place, w.move? place = some m := by
  rcases Option.or_eq_some_iff.mp h with hattend | ⟨-, hmove⟩
  · obtain ⟨group, hgroup, rfl⟩ := Option.map_eq_some_iff.mp hattend
    obtain ⟨board, hboard, rfl⟩ := Option.map_eq_some_iff.mp hgroup
    obtain ⟨waiter, -, hwaiter⟩ := List.exists_of_findSome?_eq_some hboard
    exact .inl ⟨waiter, board, hwaiter, rfl⟩
  · obtain ⟨place, -, hplace⟩ := List.exists_of_findSome?_eq_some hmove
    exact .inr ⟨place, hplace⟩

/-- Nobody acts unless somebody can. -/
theorem act?_eq_none (h : Timed.act? w = none) :
    w.canAct = false ∧ ∀ waiter, w.group.board.attend? waiter = none := by
  obtain ⟨hattend, hmove⟩ := Option.or_eq_none_iff.mp h
  refine ⟨List.any_eq_false.mpr fun j hj hsome => ?_, fun waiter => ?_⟩
  · obtain ⟨place, hlt, hplace⟩ := List.getElem_of_mem hj
    have hnone := List.findSome?_eq_none_iff.mp hmove place (List.mem_range.mpr hlt)
    obtain ⟨phase, hphase⟩ := Option.isSome_iff_exists.mp hsome
    rw [move?, List.getElem?_eq_getElem hlt, hplace] at hnone
    simp only [Option.bind_eq_bind, Option.bind_some, hphase] at hnone
    cases hnone
  · rcases Nat.lt_or_ge waiter w.group.board.waiters.length with hlt | hge
    · have hboard := Option.map_eq_none_iff.mp (Option.map_eq_none_iff.mp hattend)
      exact List.findSome?_eq_none_iff.mp hboard waiter (List.mem_range.mpr hlt)
    · rw [TaskBoard.attend?, List.getElem?_eq_none hge]
      rfl

/-! ### On the way down -/

/-- A workplace on its way down: every task was cancelled at `start`, when the jobs were `jobs`, and
somebody waits until no task is left, or until `stop`. -/
structure Winding (started : List TaskRecord) (jobs : List Job) (start stop : Instant)
    (waiter : Nat) (w : Workplace) : Prop where
  course : Course started w
  cancelled : w.group.isCancelled TaskGroup.root = true
  informs : w.group.board.Informs waiter
  start_le : start ≤ w.clock
  le_stop : w.clock ≤ stop
  length : w.jobs.length = jobs.length
  keeps : ∀ (place : Nat) (j₀ j : Job), jobs[place]? = some j₀ → w.jobs[place]? = some j →
    Job.Keeps start w.clock j₀ j
  /-- Time passes only while there are tasks. -/
  busy : ∀ t : Instant, start ≤ t → t < w.clock → ∃ j ∈ jobs, j.endsBy start t = false

/-- Every job was started under the token that was cancelled. -/
theorem Winding.isCancelled (h : Winding started jobs start stop waiter w) (hj : j ∈ w.jobs) :
    w.group.isCancelled j.ticket.token = true :=
  Cancellation.reaches_of_isWithin (h.course.accounted.derived j hj) h.cancelled

/-- One who waits takes a step. -/
theorem Winding.attend (h : Winding started jobs start stop waiter w) {other : Nat}
    {board : TaskBoard} (hattend : w.group.board.attend? other = some board) :
    Winding started jobs start stop waiter { w with group := { w.group with board } } ∧
      actsLeft { w with group := { w.group with board } } < w.actsLeft := by
  refine ⟨?_, ?_⟩
  · exact ⟨h.course.next (.attend hattend), h.cancelled, h.informs.attend hattend, h.start_le,
      h.le_stop, h.length, h.keeps, h.busy⟩
  · have hlt := TaskBoard.actsLeft_attend hattend
    exact Nat.add_lt_add_right (Nat.add_lt_add_left hlt _) _

/-- A job takes a step. -/
theorem Winding.move (h : Winding started jobs start stop waiter w)
    (hmove : w.move? place = some m) :
    Winding started jobs start stop waiter m ∧ m.actsLeft < w.actsLeft := by
  have hcourse := h.course.next (.move hmove)
  obtain ⟨j, phase, hj, hnext, rfl⟩ := move?_eq_some hmove
  rw [h.isCancelled (List.mem_of_getElem? hj)] at hnext
  generalize hgroup : (if Job.isFinished { j with phase } = true then w.group.finish j.ticket.id
    else w.group) = group at hcourse ⊢
  -- the group stays as it is, or the task of the job is taken down
  have hboard : group.cancellation = w.group.cancellation ∧ group.board.Informs waiter ∧
      group.board.actsLeft ≤ w.group.board.actsLeft := by
    rw [← hgroup]
    split
    · exact ⟨rfl, h.informs.remove _, TaskBoard.actsLeft_remove_le ..⟩
    · exact ⟨rfl, h.informs, Nat.le_refl _⟩
  obtain ⟨hcancellation, hinforms, hwaiters⟩ := hboard
  refine ⟨⟨hcourse, ?_, hinforms, h.start_le, h.le_stop, ?_, ?_, h.busy⟩, ?_⟩
  · exact (congrArg (Cancellation.reaches · TaskGroup.root) hcancellation).trans h.cancelled
  · exact (List.length_set ..).trans h.length
  · intro other j₀ k h₀ hk
    rcases (getElem?_set_eq_some_iff hj).mp hk with ⟨rfl, rfl⟩ | ⟨-, hk⟩
    · exact (h.keeps other j₀ j h₀ hj).next hnext
    · exact h.keeps other j₀ k h₀ hk
  · have hsum := sum_map_set (·.phase.actsLeft) { j with phase } hj
    have hlt := JobPhase.actsLeft_next? hnext
    have hflag :=
      (!canAct { w with jobs := w.jobs.set place { j with phase }, group }).toNat_le
    rw [actsLeft, actsLeft]
    dsimp only at hsum hflag ⊢
    omega

/-- **Whoever acts, the workplace stays on its way**, and makes progress. -/
theorem Winding.act (h : Winding started jobs start stop waiter w) (hact : Timed.act? w = some m) :
    Winding started jobs start stop waiter m ∧ m.actsLeft < w.actsLeft := by
  rcases act?_cases hact with ⟨other, board, hattend, rfl⟩ | ⟨place, hmove⟩
  · exact h.attend hattend
  · exact h.move hmove

/-- While there are tasks on the board, some job has not come to its end. -/
theorem Winding.exists_unfinished (h : Winding started jobs start stop waiter w)
    (hbusy : w.group.board.isIdle = false) : ∃ j ∈ w.jobs, j.isFinished = false := by
  by_contra hnone
  have hall : ∀ j ∈ w.jobs, ¬ (!j.isFinished) = true := by
    intro j hj hunfinished
    exact hnone ⟨j, hj, Bool.not_eq_true' _ ▸ hunfinished⟩
  have hsize := h.course.accounted.size_eq
  rw [List.countP_eq_zero.mpr hall] at hsize
  rw [TaskBoard.isIdle, List.isEmpty_iff_length_eq_zero.mpr hsize] at hbusy
  cases hbusy

/-- Time passes up to `stop`, or up to the first instant for which a job waits. -/
theorem earliest?_due (ht : Timed.earliest? [Timed.due? w, some stop] = some t) :
    t ≤ stop ∧ (∀ j ∈ w.jobs, ∀ d, j.phase.due? = some d → t ≤ d) ∧
      (t = stop ∨ ∃ j ∈ w.jobs, j.phase.due? = some t) := by
  refine ⟨Timed.earliest?_le (List.mem_cons_of_mem _ List.mem_cons_self) ht, ?_, ?_⟩
  · intro j hj d hd
    have hmem : some d ∈ w.jobs.map fun j => j.phase.due? := List.mem_map.mpr ⟨j, hj, hd⟩
    obtain ⟨e, he, hle⟩ := Timed.exists_earliest? hmem
    have hfirst : some e ∈ [Timed.due? w, some stop] := List.mem_cons.mpr (.inl he.symm)
    exact Nat.le_trans (Timed.earliest?_le hfirst ht) hle
  · rcases List.mem_cons.mp (Timed.mem_of_earliest? ht) with hfirst | hsecond
    · obtain ⟨j, hj, hd⟩ := List.mem_map.mp (Timed.mem_of_earliest? hfirst.symm)
      exact .inr ⟨j, hj, hd⟩
    · exact .inl (Option.some.inj (List.mem_singleton.mp hsecond))

/-- A job that cannot act waits, though it has been cancelled. -/
theorem Winding.next?_eq_none (h : Winding started jobs start stop waiter w)
    (hstill : w.canAct = false) (hj : j ∈ w.jobs) :
    j.phase.next? j.plan w.clock true = none := by
  have hcannot := List.any_eq_false.mp hstill j hj
  rw [h.isCancelled hj] at hcannot
  exact Option.not_isSome_iff_eq_none.mp hcannot

/-- **While time passes, the workplace stays on its way**, and makes progress unless it is
stopped. -/
theorem Winding.wait (h : Winding started jobs start stop waiter w)
    (hgoal : w.group.board.isDone waiter = false) (hnone : Timed.act? w = none)
    (hlt : w.clock < stop) (ht : Timed.earliest? [Timed.due? w, some stop] = some t) :
    Winding started jobs start stop waiter { w with clock := t } ∧
      (stop ≤ t ∨ actsLeft { w with clock := t } < w.actsLeft) := by
  obtain ⟨hstill, hattend⟩ := act?_eq_none hnone
  obtain ⟨hstop, hdue, hcases⟩ := earliest?_due ht
  have hle : w.clock ≤ t := by
    rcases hcases with rfl | ⟨j, hj, hd⟩
    · exact Nat.le_of_lt hlt
    · by_contra hlate
      have hsome : (j.phase.next? j.plan w.clock true).isSome = true :=
        JobPhase.isSome_next?_of_due? hd (Nat.le_of_lt (Nat.lt_of_not_le hlate))
      rw [h.next?_eq_none hstill hj] at hsome
      cases hsome
  have hkeeps : ∀ (place : Nat) (j₀ j : Job), jobs[place]? = some j₀ → w.jobs[place]? = some j →
      Job.Keeps start t j₀ j := by
    intro place j₀ j h₀ hplace
    have hj := List.mem_of_getElem? hplace
    exact (h.keeps place j₀ j h₀ hplace).wait (h.next?_eq_none hstill hj) hle (hdue j hj)
  refine ⟨⟨h.course.next (.pass hle), h.cancelled, h.informs, Nat.le_trans h.start_le hle, hstop,
    h.length, hkeeps, ?_⟩, ?_⟩
  · -- there are tasks, or nobody would wait, and what is left of them ends later
    intro i _ hi
    have hbusy := h.informs.isIdle_eq_false (hattend waiter) hgoal
    obtain ⟨j, hj, hunfinished⟩ := h.exists_unfinished hbusy
    obtain ⟨place, hplace⟩ := List.getElem?_of_mem hj
    have hlength : place < jobs.length := h.length ▸ (List.getElem?_eq_some_iff.mp hplace).1
    have h₀ : jobs[place]? = some jobs[place] := List.getElem?_eq_getElem hlength
    exact ⟨jobs[place], List.getElem_mem hlength,
      (hkeeps place _ j h₀ hplace).endsBy_eq_false hunfinished hi⟩
  · rcases hcases with rfl | ⟨j, hj, hd⟩
    · exact .inl (Nat.le_refl _)
    · have hcan : canAct { w with clock := t } = true := List.any_eq_true.mpr
        ⟨j, hj, JobPhase.isSome_next?_of_due? hd (Nat.le_refl t)⟩
      refine .inr ?_
      rw [actsLeft, actsLeft, hcan, hstill]
      exact Nat.lt_succ_self _

/-- A step on the way down, by whoever can take one.  Time passes when nobody can. -/
inductive Winds (stop : Instant) (waiter : Nat) (w : Workplace) : Workplace → Prop where
  | attend {other : Nat} {board : TaskBoard} (h : w.group.board.attend? other = some board) :
      Winds stop waiter w { w with group := { w.group with board } }
  | move {place : Nat} {m : Workplace} (h : w.move? place = some m) : Winds stop waiter w m
  | wait {t : Instant} (hgoal : w.group.board.isDone waiter = false) (hnone : Timed.act? w = none)
      (hlt : w.clock < stop) (ht : Timed.earliest? [Timed.due? w, some stop] = some t) :
      Winds stop waiter w { w with clock := t }

/-- **In whatever order** those who can act do so, the workplace stays on its way. -/
theorem Winding.course_of_winds (h : Winding started jobs start stop waiter w)
    (hwinds : Relation.ReflTransGen (Winds stop waiter) w m) :
    Winding started jobs start stop waiter m := by
  induction hwinds with
  | refl => exact h
  | tail _ hstep ih =>
      cases hstep with
      | attend hattend => exact (ih.attend hattend).1
      | move hmove => exact (ih.move hmove).1
      | wait hgoal hnone hlt ht => exact (ih.wait hgoal hnone hlt ht).1

/-! ### The end -/

/-- Where no task is left, every job has come to its end. -/
theorem Winding.isFinished_of_isIdle (h : Winding started jobs start stop waiter w)
    (hidle : w.group.board.isIdle = true) (hj : j ∈ w.jobs) : j.isFinished = true := by
  have hsize := h.course.accounted.size_eq
  rw [TaskBoard.size, List.isEmpty_iff_length_eq_zero.mp hidle] at hsize
  have hnot := List.countP_eq_zero.mp hsize.symm j hj
  rwa [Bool.not_eq_true, Bool.not_eq_false'] at hnot

/-- Where no task is left, or no job has to come to its end just now, the jobs that have come to
their ends are those that had to. -/
theorem Winding.isFinished_eq (h : Winding started jobs start stop waiter w)
    (hends : w.group.board.isIdle = true ∨ ∀ j ∈ jobs, j.endsAt? start ≠ some w.clock)
    {j₀ : Job} (h₀ : jobs[place]? = some j₀) (hj : w.jobs[place]? = some j) :
    j.isFinished = j₀.endsBy start w.clock := by
  refine (h.keeps place j₀ j h₀ hj).isFinished_eq (hends.imp (fun hidle => ?_) fun hnot => ?_)
  · exact h.isFinished_of_isIdle hidle (List.mem_of_getElem? hj)
  · exact hnot j₀ (List.mem_of_getElem? h₀)

/-- **How many tasks are left.** -/
theorem Winding.size_eq (h : Winding started jobs start stop waiter w)
    (hends : w.group.board.isIdle = true ∨ ∀ j ∈ jobs, j.endsAt? start ≠ some w.clock) :
    w.group.board.size = jobs.countP fun j => !j.endsBy start w.clock := by
  rw [h.course.accounted.size_eq]
  refine countP_eq_of_places h.length fun place j j₀ hj h₀ => ?_
  rw [h.isFinished_eq hends h₀ hj]

/-- **The time it took** is no longer than it had to be. -/
theorem Winding.isLeast (h : Winding started jobs start stop waiter w)
    (hends : w.group.board.isIdle = true ∨ stop ≤ w.clock) :
    IsLeast {t | start ≤ t ∧ (stop ≤ t ∨ ∀ j ∈ jobs, j.endsBy start t = true)} w.clock := by
  refine ⟨⟨h.start_le, hends.symm.imp_right fun hidle j₀ hj₀ => ?_⟩, ?_⟩
  · obtain ⟨place, h₀⟩ := List.getElem?_of_mem hj₀
    have hlt : place < w.jobs.length := h.length ▸ (List.getElem?_eq_some_iff.mp h₀).1
    have hj : w.jobs[place]? = some w.jobs[place] := List.getElem?_eq_getElem hlt
    rw [← h.isFinished_eq (.inl hidle) h₀ hj]
    exact h.isFinished_of_isIdle hidle (List.getElem_mem hlt)
  · rintro t ⟨hstart, hcases⟩
    by_contra hearly
    rcases hcases with hstop | hall
    · exact hearly (Nat.le_trans h.le_stop hstop)
    · obtain ⟨j, hj, hgoes⟩ := h.busy t hstart (Nat.lt_of_not_le hearly)
      rw [hall j hj] at hgoes
      cases hgoes

/-! ### Shutdowns -/

theorem clock_attend (w : Workplace) (other : Nat) : (Staffed.attend w other).clock = w.clock := by
  unfold Staffed.attend
  split <;> rfl

/-- One who waits takes a step, if it can. -/
theorem Winding.attendIfAny (h : Winding started jobs start stop waiter w) (other : Nat) :
    Winding started jobs start stop waiter (Staffed.attend w other) := by
  unfold Staffed.attend
  split
  · rename_i board hattend
    exact (h.attend hattend).1
  · exact h

/-- The beginning of a shutdown: every task is cancelled, and somebody arrives who waits until no
task is left. -/
def closing (w : Workplace) : Workplace × Nat :=
  Staffed.arrive { w with group := w.group.cancelAll }

theorem winding_closing (h : Course started w) (grace : Duration) :
    Winding started w.jobs w.clock (w.clock + grace.nanos) w.closing.2 w.closing.1 := by
  refine Winding.attendIfAny (Winding.attendIfAny ?_ _) _
  have hcancelled : Course started { w with group := w.group.cancelAll } :=
    h.next (.cancel TaskGroup.root)
  refine ⟨hcancelled.next .arrive, ?_, ⟨.arriving, List.getElem?_concat_length, trivial⟩,
    Nat.le_refl _, Nat.le_add_right .., rfl, ?_, ?_⟩
  · show (w.group.cancellation.cancel TaskGroup.root).reaches TaskGroup.root = true
    rw [Cancellation.reaches_cancel, Token.isWithin_self]
    rfl
  · intro place j₀ j h₀ hj
    obtain rfl := Option.some.inj (h₀.symm.trans hj)
    exact .refl _ _
  · exact fun t hstart ht => absurd hstart (Nat.not_le_of_lt ht)

/-- **A workplace on its way down** comes to an end: no task is left, or it is stopped. -/
theorem Winding.ends (h : Winding started jobs start stop waiter w) :
    let s :=
      Timed.run (fun s : Workplace => s.group.board.isDone waiter) (some stop) w.stepBound [] w
    Winding started jobs start stop waiter s ∧
      (s.group.board.isIdle = true ∨ stop ≤ s.clock) := by
  have hact : ∀ s t : Workplace, Winding started jobs start stop waiter s → Timed.act? s = some t →
      Winding started jobs start stop waiter t ∧ t.actsLeft < s.actsLeft := fun s t hs => hs.act
  obtain ⟨hwinding, hends⟩ :=
    Timed.run_ends hact (fun s t hs => hs.wait) h w.actsLeft_lt_stepBound
  exact ⟨hwinding, hends.imp_left hwinding.informs.isIdle_of_isDone⟩

/-- A shutdown in its parts. -/
theorem shutdown_eq (w : Workplace) (grace : Duration) :
    Staffed.shutdown w grace =
      let s := Timed.run (fun s : Workplace => s.group.board.isDone w.closing.2)
        (some (w.clock + grace.nanos)) w.closing.1.stepBound [] w.closing.1
      ({ s with group := { s.group with board := s.group.board.dismiss w.closing.2 } },
        s.group.board.size) := by
  have hclock : w.closing.1.clock = w.clock := (clock_attend _ _).trans (clock_attend _ _)
  rw [← hclock]
  rfl

/-- What a shutdown has come to when no task is left or its time is over. -/
theorem Winding.by_ends (h : Winding started jobs start stop waiter w)
    (hends : w.group.board.isIdle = true ∨ stop ≤ w.clock)
    (hstop : ∀ j ∈ jobs, j.endsAt? start ≠ some stop) :
    IsLeast {t | start ≤ t ∧ (stop ≤ t ∨ ∀ j ∈ jobs, j.endsBy start t = true)} w.clock ∧
      (∀ (place : Nat) (j₀ j : Job), jobs[place]? = some j₀ → w.jobs[place]? = some j →
        j.isFinished = j₀.endsBy start w.clock) ∧
      w.group.board.size = jobs.countP fun j => !j.endsBy start w.clock := by
  have hnobody : w.group.board.isIdle = true ∨ ∀ j ∈ jobs, j.endsAt? start ≠ some w.clock := by
    refine hends.imp_right fun hlate => ?_
    rw [Nat.le_antisymm h.le_stop hlate]
    exact hstop
  exact ⟨h.isLeast hends, fun _ _ _ => h.isFinished_eq hnobody, h.size_eq hnobody⟩

/-- **The order in which jobs act makes no difference** to when a shutdown returns, and with
what. -/
theorem shutdown_in_any_order (h : Course started w) {grace : Duration}
    (hgrace : ∀ j ∈ w.jobs, j.endsAt? w.clock ≠ some (w.clock + grace.nanos))
    (hwinds : Relation.ReflTransGen (Winds (w.clock + grace.nanos) w.closing.2) w.closing.1 m)
    (hends : m.group.board.isDone w.closing.2 = true ∨ w.clock + grace.nanos ≤ m.clock) :
    IsLeast {t | w.clock ≤ t ∧
        (w.clock + grace.nanos ≤ t ∨ ∀ j ∈ w.jobs, j.endsBy w.clock t = true)} m.clock ∧
      (∀ (place : Nat) (j₀ j : Job), w.jobs[place]? = some j₀ → m.jobs[place]? = some j →
        j.isFinished = j₀.endsBy w.clock m.clock) ∧
      m.group.board.size = w.jobs.countP fun j => !j.endsBy w.clock m.clock := by
  have hwinding := (winding_closing h grace).course_of_winds hwinds
  exact hwinding.by_ends (hends.imp_left hwinding.informs.isIdle_of_isDone) hgrace

/-- **When a shutdown returns, and with what.**  Whatever has happened at a workplace, its board
lists by name and number the tasks that were started and have not come to their own ends, no number
twice.  A shutdown cancels every task.  If its time is not over just when a job has to come to its
end, it returns at the first instant at which its time is over or every job has come to its end.
The jobs that have to come to their ends by then have done so, and it tells how many are left.  A
job that fails or is stopped from outside is one that never comes to its own end. -/
theorem shutdown_by_ends (h : Course started w) :
    w.group.board.listing.Pairwise TaskRecord.Before ∧
      (w.group.board.listing.map (·.id)).Nodup ∧
      (∀ r, r ∈ w.group.board.listing ↔ r ∈ started ∧ w.hasFinished r.id = false) ∧
      ∀ grace : Duration, (∀ j ∈ w.jobs, j.endsAt? w.clock ≠ some (w.clock + grace.nanos)) →
        let r := Staffed.shutdown w grace
        Course started r.1 ∧ (∀ j ∈ w.jobs, r.1.group.isCancelled j.ticket.token = true) ∧
          IsLeast {t | w.clock ≤ t ∧
            (w.clock + grace.nanos ≤ t ∨ ∀ j ∈ w.jobs, j.endsBy w.clock t = true)} r.1.clock ∧
          (∀ (place : Nat) (j₀ j : Job), w.jobs[place]? = some j₀ → r.1.jobs[place]? = some j →
            j.isFinished = j₀.endsBy w.clock r.1.clock) ∧
          r.2 = w.jobs.countP fun j => !j.endsBy w.clock r.1.clock := by
  have haccounted := h.accounted
  have hnodup := haccounted.nodup_records
  refine ⟨w.group.board.pairwise_listing hnodup,
    (w.group.board.listing_perm.map _).nodup_iff.mpr hnodup,
    fun r => haccounted.mem_listing_iff, ?_⟩
  intro grace hgrace
  obtain ⟨hwinding, hends⟩ := (winding_closing h grace).ends
  rw [shutdown_eq w grace]
  dsimp only
  generalize (Timed.run _ _ _ _ _ : Workplace) = s at hwinding hends ⊢
  refine ⟨hwinding.course.next (.dismiss _), fun j hj => ?_, hwinding.by_ends hends hgrace⟩
  exact Cancellation.reaches_of_isWithin (haccounted.derived j hj) hwinding.cancelled

end Workplace

namespace Workplace.ClosingTime

/-- Two tasks of one name, of which one heeds its cancellation after 200 milliseconds and the other
works for an hour, and one that does nothing. -/
def started : List TaskRecord :=
  [⟨1, "sweep", .background⟩, ⟨2, "sweep", .background⟩, ⟨3, "reclaim", .reclaim⟩]

/-- The workplace where they have just been started. -/
def staffed : Workplace :=
  let w := (empty.start "sweep" .background (.cancellation (.ofMillis 200))).1
  let w := (w.start "sweep" .background (.time (.ofSeconds 3600))).1
  (w.start "reclaim" .reclaim .nothing).1

theorem course_staffed : Course started staffed :=
  .step (.step (.step .empty (.start ..)) (.start ..)) (.start ..)

end Workplace.ClosingTime

namespace Workplace

open ClosingTime

/-- In a second one of three tasks does not come to its end, and in two hours all do. -/
theorem shutdown_by_ends_of_three_tasks :
    (∀ j ∈ staffed.jobs, j.endsAt? staffed.clock ≠ some (0 + (Duration.ofSeconds 1).nanos)) ∧
      (∀ j ∈ staffed.jobs, j.endsAt? staffed.clock ≠ some (0 + (Duration.ofSeconds 7200).nanos)) ∧
      (Staffed.shutdown staffed (.ofSeconds 1)).1.clock = 1000000000 ∧
      (Staffed.shutdown staffed (.ofSeconds 1)).2 = 1 ∧
      (Staffed.shutdown staffed (.ofSeconds 7200)).1.clock = 3600000000000 ∧
      (Staffed.shutdown staffed (.ofSeconds 7200)).2 = 0 := by
  obtain ⟨hgrace, hgrace', hclock, hclock'⟩ :
      (∀ j ∈ staffed.jobs, j.endsAt? staffed.clock ≠ some (0 + (Duration.ofSeconds 1).nanos)) ∧
      (∀ j ∈ staffed.jobs, j.endsAt? staffed.clock ≠ some (0 + (Duration.ofSeconds 7200).nanos)) ∧
      (Staffed.shutdown staffed (.ofSeconds 1)).1.clock = 1000000000 ∧
      (Staffed.shutdown staffed (.ofSeconds 7200)).1.clock = 3600000000000 := by
    decide
  obtain ⟨-, -, -, hshutdown⟩ := shutdown_by_ends course_staffed
  obtain ⟨-, -, -, -, hleft⟩ := hshutdown (.ofSeconds 1) hgrace
  obtain ⟨-, -, -, -, hleft'⟩ := hshutdown (.ofSeconds 7200) hgrace'
  rw [hclock] at hleft
  rw [hclock'] at hleft'
  exact ⟨hgrace, hgrace', hclock, hleft.trans (by decide), hclock',
    hleft'.trans (by decide)⟩

end Workplace

end ShardKeeper
