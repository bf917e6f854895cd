import Mathlib.Logic.Relation
import Mathlib.Tactic.Ring
import ShardKeeper.Proofs.Catalog.Wait
import ShardKeeper.Proofs.Reclaim.Saga

/-!
# The attempts of a saga

A saga makes one attempt after the other until one removes the data, all that are
allowed have failed, or it is cancelled.  An attempt is a wait, and a removal if
the wait succeeds.  The steps of a saga are followed here in the course of time:
removals take their time, and nothing happens between a step and the instant that
the saga waits for, unless it is cancelled.

## Main definitions

* `ReclaimCase` — a key to be reclaimed, the catalog at each instant, the instant
  of cancellation, and how long the removals take and how they end.
* `SagaRun`, `ReclaimCase.next?`, `ReclaimCase.Reaches` — a saga in the course of time.
* `ReclaimCase.attempt`, `ReclaimCase.upshot` — what each attempt does, as long as
  all before it have failed, and what it comes to.
* `ReclaimCase.HasDeadlines` — time limits that are all over at instants that the clock can tell.
* `ReclaimCase.EndsIn` — the ways in which a saga can end.

## Main results

* `ReclaimCase.reaches_afterWait` — a wait of a saga goes as `CatalogWait.run` says.
* `ReclaimCase.reaches_after`, `ReclaimCase.reaches_before_succ` — one attempt, and
  the pause after it.
* `ReclaimCase.exists_end` — every saga ends in one of these ways.
* `ReclaimCase.saga_by_attempts` — how many attempts a saga makes and when, how it
  ends and how long it takes.

No pause is longer than `Duration.longestPause`, so a saga that is meant to pause
longer makes its next attempt early (`ReclaimCase.abandoned_before_pause_is_over`).
-/

namespace ShardKeeper

/-- The reclaim of one key, with everything that has a bearing on it. -/
structure ReclaimCase where
  plan : ReclaimPlan
  key : ReclaimKey
  around : Surroundings
  /-- How long the n-th removal takes, and the error text it ends with, if it fails. -/
  results : ℕ → Nat × Option String
  /-- The instant at which the saga begins. -/
  start : Instant

/-- A saga in the course of time, with the instants at which it asked for a newer catalog and at
which it began a removal. -/
structure SagaRun where
  now : Instant
  saga : Saga
  requests : List Instant
  removals : List Instant

namespace SagaRun

/-- The saga takes a step. -/
def take (r : SagaRun) (saga : Saga) : SagaEffect → SagaRun
  | .nothing => { r with saga }
  | .request => { r with saga, requests := r.requests ++ [r.now] }
  | .remove => { r with saga, removals := r.removals ++ [r.now] }

/-- The saga as the end of its wait leaves it. -/
def afterWait (r : SagaRun) (plan : ReclaimPlan) (waited : CatalogWait.Run) : SagaRun :=
  match waited.ending with
  | .met =>
    { r with
      now := waited.instant, saga := { r.saga with phase := .removing }
      removals := r.removals ++ [waited.instant] }
  | .timedOut time =>
    { r with
      now := waited.instant
      saga := r.saga.afterFailure plan waited.instant
        (CatalogWait.Failure.timedOut r.saga.key.condition time).message }
  | .interrupted | .never =>
    { r with now := waited.instant, saga := { r.saga with phase := .ended .interrupted } }

end SagaRun

namespace ReclaimCase

variable (c : ReclaimCase)

/-- The saga before its first step. -/
def begun : SagaRun := ⟨c.start, .ofKey c.key, [], []⟩

/-- What comes next: the end of the removal that is under way, or a step of the saga, or time passes
until the instant that the saga waits for or until it is cancelled. -/
def next? (r : SagaRun) : Option SagaRun :=
  if r.saga.phase = .removing then
    let (time, error) := c.results (r.removals.length - 1)
    some { r with now := r.now + time, saga := r.saga.afterRemoval c.plan (r.now + time) error }
  else
    match r.saga.next? c.plan r.now (c.around.cancelledBy r.now) (c.around.catalogAt r.now) with
    | some (saga, effect) => some (r.take saga effect)
    | none =>
      r.saga.phase.due?.map fun due =>
        { r with now := (c.around.cancelWithin r.now due).getD due }

/-- What the saga comes to in any number of steps. -/
abbrev Reaches : SagaRun → SagaRun → Prop := Relation.ReflTransGen fun r r' => c.next? r = some r'

open CatalogWait (LiveAt live_of_again)

variable {c} {r : SagaRun} {saga : Saga} {effect : SagaEffect}

/-! ### One step -/

theorem next?_of_moves (h : Saga.Moves c.plan r.now (c.around.cancelledBy r.now)
    (c.around.catalogAt r.now) r.saga saga effect) : c.next? r = some (r.take saga effect) := by
  have hnext := Saga.moves_iff.mp h
  have hphase : r.saga.phase ≠ .removing := fun hphase => by
    simp [Saga.next?, hphase] at hnext
  rw [next?, if_neg hphase, hnext]

theorem next?_of_due {due t : Instant} (hphase : r.saga.phase.due? = some due)
    (hlive : LiveAt c.around r.now) (hearly : r.now < due)
    (ht : (c.around.cancelWithin r.now due).getD due = t) :
    c.next? r = some { r with now := t } := by
  subst ht
  have hnow := hlive.cancelledBy_eq
  have hlate := Nat.not_le.mpr hearly
  cases hr : r.saga.phase with
  | looking wait next | pausing next =>
      obtain rfl : next = due := by simpa [hr, SagaPhase.due?] using hphase
      simp [next?, hr, Saga.next?, hnow, hlate, SagaPhase.due?]
  | _ => simp [hr, SagaPhase.due?] at hphase

theorem next?_of_removing (hphase : r.saga.phase = .removing) :
    let result := c.results (r.removals.length - 1)
    c.next? r = some { r with
      now := r.now + result.1
      saga := r.saga.afterRemoval c.plan (r.now + result.1) result.2 } := by
  rw [next?, if_pos hphase]

/-- A cancellation ends a pause or a wait at once. -/
theorem reaches_of_cancelWithin {due t : Instant} (hphase : r.saga.phase.due? = some due)
    (hlive : LiveAt c.around r.now)
    (ht : c.around.cancelWithin r.now due = some t) :
    c.Reaches r { r with now := t, saga := { r.saga with phase := .ended .interrupted } } := by
  obtain ⟨hmem, hwithin⟩ := Option.filter_eq_some_iff.mp ht
  obtain ⟨hlt, hle⟩ : r.now < t ∧ t ≤ due := by simpa using hwithin
  have hpass := next?_of_due hphase hlive (Nat.lt_of_lt_of_le hlt hle)
    (by rw [ht, Option.getD_some])
  have hstop := next?_of_moves (c := c) (r := { r with now := t }) (.interrupt (s := r.saga)
    (by simp [Surroundings.cancelledBy, hmem]) (.inr (by rw [hphase]; rfl)))
  exact .head hpass (.single hstop)

/-! ### One wait -/

theorem next?_of_look {w : CatalogWait} (hphase : r.saga.phase = .looking w r.now)
    (hlook : r.saga.look c.plan w r.now (c.around.cancelledBy r.now) (c.around.catalogAt r.now) =
      (saga, effect)) :
    c.next? r = some (r.take saga effect) :=
  next?_of_moves (Saga.moves_of_look hphase (.inr (Nat.le_refl _)) hlook)

/-- **A saga that looks at the catalog goes through its wait**, as if the wait ran by itself. -/
theorem reaches_afterWait {w : CatalogWait} {now : Instant}
    (hphase : r.saga.phase = .looking w now) (hnow : r.now = now)
    (hcondition : w.condition = r.saga.key.condition)
    (hends : (w.runFrom c.around now).ending ≠ .never) :
    c.Reaches r (r.afterWait c.plan (w.runFrom c.around now)) := by
  fun_induction CatalogWait.runFrom w c.around now generalizing r with
  | case1 now hpoll =>
      subst hnow
      exact .single (next?_of_look hphase (by rw [Saga.look, hpoll]))
  | case2 now hpoll =>
      subst hnow
      exact .single (next?_of_look hphase (by rw [Saga.look, hpoll]))
  | case3 now waited hpoll =>
      subst hnow
      exact .single (next?_of_look hphase (by rw [Saga.look, hpoll, hcondition]))
  | case4 now next hpoll t ht =>
      subst hnow
      have hlook := next?_of_look hphase (by rw [Saga.look, hpoll])
      exact .head hlook (reaches_of_cancelWithin rfl (live_of_again hpoll) ht)
  | case5 now next hpoll hcancel hnext =>
      rename_i ih
      subst hnow
      have hlook := next?_of_look hphase (by rw [Saga.look, hpoll])
      have hpass := next?_of_due (c := c) (t := next)
        (r := r.take { r.saga with phase := .looking w next } .nothing)
        rfl (live_of_again hpoll) hnext.1 (by simp [SagaRun.take, hcancel])
      exact .head hlook (.head hpass (ih rfl rfl hcondition hends))
  | case6 => exact absurd rfl hends

/-! ### The schedule -/

/-- An attempt: when it begins, and how many removals were made before it. -/
structure Attempt where
  began : Instant
  removalsBefore : ℕ
deriving DecidableEq

/-- What an attempt comes to. -/
inductive Upshot where
  | removed
  | failed (error : String)
  | interrupted
deriving DecidableEq

section Schedule

variable (c : ReclaimCase)

/-- The wait of an attempt. -/
def waited (a : Attempt) : CatalogWait.Run :=
  CatalogWait.run ⟨c.key.condition, c.plan.polling, a.began⟩ c.around

/-- The instant at which an attempt begins to remove the data, if its wait succeeds. -/
def removal? (a : Attempt) : Option Instant :=
  if (c.waited a).ending = .met then some (c.waited a).instant else none

/-- What an attempt comes to: its removal decides or, if it makes none, its wait. -/
def upshot (a : Attempt) : Upshot :=
  match (c.waited a).ending with
  | .met => (c.results a.removalsBefore).2.elim .removed .failed
  | .timedOut time => .failed (CatalogWait.Failure.timedOut c.key.condition time).message
  | .interrupted | .never => .interrupted

/-- The instant of the end of an attempt. -/
def ended (a : Attempt) : Instant :=
  (c.waited a).instant + (c.removal? a).elim 0 fun _ => (c.results a.removalsBefore).1

/-- Attempt `i`, counted from zero, when all before it have failed. -/
def attempt : ℕ → Attempt
  | 0 => ⟨c.start, 0⟩
  | i + 1 =>
    ⟨c.ended (attempt i) + c.plan.settings.pause.pauseNanos,
      (attempt i).removalsBefore + (c.removal? (attempt i)).toList.length⟩

/-- The instants at which the first attempts begin. -/
def requests (count : ℕ) : List Instant := (List.range count).map fun i => (c.attempt i).began

/-- The instants at which the first attempts remove the data. -/
def removals (count : ℕ) : List Instant :=
  (List.range count).filterMap fun i => c.removal? (c.attempt i)

/-- After attempt `i` there is another one: it has failed, more attempts are allowed, and the saga
is not cancelled before that begins. -/
structure GoesOn (i : ℕ) : Prop where
  failed : ∃ e, c.upshot (c.attempt i) = .failed e
  allowed : i + 1 < c.plan.settings.maxAttempts
  live : LiveAt c.around (c.attempt (i + 1)).began

/-- The attempt that the saga does not go on after. -/
structure IsLast (last : ℕ) : Prop where
  goes : ∀ i < last, c.GoesOn i
  ends : ¬ c.GoesOn last

/-- The clock can tell when the time limit is over of each attempt that the saga comes to. -/
def HasDeadlines : Prop :=
  ∀ i, (∀ j < i, c.GoesOn j) →
    (c.attempt i).began + c.plan.polling.timeout.nanos ≤ Instant.latest

/-- How a saga ends after a number of attempts, and when. -/
inductive EndsIn : ℕ → Instant → ReclaimOutcome → Prop where
  | unstarted (hcancelled : c.around.cancelledBy c.start = true) : EndsIn 0 c.start .interrupted
  | removed {last : ℕ} (hlast : c.IsLast last) (h : c.upshot (c.attempt last) = .removed) :
      EndsIn (last + 1) (c.ended (c.attempt last)) (.removed (last + 1))
  | abandoned {last : ℕ} {e : String} (hlast : c.IsLast last)
      (h : c.upshot (c.attempt last) = .failed e) (hmax : c.plan.settings.maxAttempts = last + 1) :
      EndsIn (last + 1) (c.ended (c.attempt last)) (.abandoned (last + 1) e)
  | interrupted {last : ℕ} (hlast : c.IsLast last)
      (h : c.upshot (c.attempt last) = .interrupted) :
      EndsIn (last + 1) (c.ended (c.attempt last)) .interrupted
  /-- It is cancelled in the pause after a failed attempt, or before that. -/
  | stopped {last : ℕ} {e : String} {t : Instant} (hlast : c.IsLast last)
      (h : c.upshot (c.attempt last) = .failed e)
      (hallowed : last + 1 < c.plan.settings.maxAttempts) (ht : t ∈ c.around.cancelAt)
      (hle : t ≤ (c.attempt (last + 1)).began) :
      EndsIn (last + 1) (max t (c.ended (c.attempt last))) .interrupted

/-- The saga before attempt `i`. -/
def before (i : ℕ) : SagaRun :=
  ⟨(c.attempt i).began, ⟨c.key, i + 1, .starting⟩, c.requests i, c.removals i⟩

/-- The saga in attempt `i`, when it has asked for a newer catalog. -/
def asked (i : ℕ) : SagaRun :=
  ⟨(c.attempt i).began,
    ⟨c.key, i + 1, .looking ⟨c.key.condition, c.plan.polling, (c.attempt i).began⟩
      (c.attempt i).began⟩,
    c.requests (i + 1), c.removals i⟩

/-- The saga after attempt `i`. -/
def after (i : ℕ) (phase : SagaPhase) : SagaRun :=
  ⟨c.ended (c.attempt i), ⟨c.key, i + 1, phase⟩, c.requests (i + 1), c.removals (i + 1)⟩

/-- What attempt `i` leads to. -/
def phaseAfter (i : ℕ) : SagaPhase :=
  match c.upshot (c.attempt i) with
  | .removed => .ended (.removed (i + 1))
  | .failed e =>
    if i + 1 < c.plan.settings.maxAttempts then .pausing (c.attempt (i + 1)).began
    else .ended (.abandoned c.plan.settings.maxAttempts e)
  | .interrupted => .ended .interrupted

theorem requests_succ (count : ℕ) :
    c.requests (count + 1) = c.requests count ++ [(c.attempt count).began] := by
  rw [requests, List.range_succ, List.map_append, List.map_singleton, requests]

theorem removals_succ (count : ℕ) :
    c.removals (count + 1) = c.removals count ++ (c.removal? (c.attempt count)).toList := by
  rw [removals, List.range_succ, List.filterMap_append, removals]
  cases h : c.removal? (c.attempt count) <;> simp [h]

theorem length_removals (count : ℕ) :
    (c.removals count).length = (c.attempt count).removalsBefore := by
  induction count with
  | zero => rfl
  | succ count ih => rw [removals_succ, List.length_append, ih, attempt]

end Schedule

/-! ### One attempt -/

variable {i : ℕ}

theorem waited_ending_ne (hpace : 0 < c.plan.polling.interval.nanos) (a : Attempt) :
    (c.waited a).ending ≠ .never := by
  rcases CatalogWait.run_cases (w := ⟨c.key.condition, c.plan.polling, a.began⟩) (s := c.around)
    hpace with h | ⟨n, -, ending, instant, hne, h⟩
  · rw [waited, h]
    simp
  · rw [waited, h]
    exact hne

theorem removal?_of_met {a : Attempt} (h : (c.waited a).ending = .met) :
    c.removal? a = some (c.waited a).instant := if_pos h

/-- An attempt whose wait fails ends with the wait. -/
theorem ended_of_ne_met {a : Attempt} (h : (c.waited a).ending ≠ .met) :
    c.removal? a = none ∧ c.ended a = (c.waited a).instant := by
  have hremoval : c.removal? a = none := if_neg h
  exact ⟨hremoval, by rw [ended, hremoval]; rfl⟩

/-- A failure leads to the phase that the schedule says. -/
theorem afterFailure_eq (c : ReclaimCase) (i : ℕ) (phase : SagaPhase) (e : String) :
    Saga.afterFailure ⟨c.key, i + 1, phase⟩ c.plan (c.ended (c.attempt i)) e =
      ⟨c.key, i + 1, if i + 1 < c.plan.settings.maxAttempts then .pausing (c.attempt (i + 1)).began
        else .ended (.abandoned c.plan.settings.maxAttempts e)⟩ := by
  unfold Saga.afterFailure
  split <;> rfl

theorem next?_before (hlive : LiveAt c.around (c.attempt i).began) :
    c.next? (c.before i) = some (c.asked i) := by
  rw [asked, requests_succ]
  exact next?_of_moves (.ask rfl hlive.cancelledBy_eq)

/-- **An attempt that begins goes through its wait and its removal.** -/
theorem reaches_after (hpace : 0 < c.plan.polling.interval.nanos)
    (hlive : LiveAt c.around (c.attempt i).began) :
    c.Reaches (c.before i) (c.after i (c.phaseAfter i)) := by
  have hwait : c.Reaches (c.asked i) ((c.asked i).afterWait c.plan (c.waited (c.attempt i))) :=
    reaches_afterWait rfl rfl rfl (waited_ending_ne hpace (c.attempt i))
  refine .head (next?_before hlive) (hwait.trans ?_)
  rw [SagaRun.afterWait, phaseAfter, upshot, after, removals_succ, asked]
  cases hending : (c.waited (c.attempt i)).ending with
  | met =>
      have hremoval := removal?_of_met hending
      have hended : c.ended (c.attempt i) = (c.waited (c.attempt i)).instant +
          (c.results (c.attempt i).removalsBefore).1 := by rw [ended, hremoval]; rfl
      have hcount : (c.removals i ++ [(c.waited (c.attempt i)).instant]).length - 1 =
          (c.attempt i).removalsBefore := by
        rw [List.length_append, List.length_singleton, Nat.add_sub_cancel, length_removals]
      refine .single ((next?_of_removing rfl).trans ?_)
      dsimp only
      rw [hcount, ← hended, hremoval]
      cases (c.results (c.attempt i).removalsBefore).2 with
      | none => rfl
      | some e =>
          rw [Saga.afterRemoval, afterFailure_eq]
          rfl
  | timedOut time =>
      obtain ⟨hremoval, hended⟩ := ended_of_ne_met (c := c) (a := c.attempt i) (by simp [hending])
      rw [hremoval, Option.toList_none, List.append_nil, ← hended]
      dsimp only
      rw [afterFailure_eq]
  | interrupted =>
      obtain ⟨hremoval, hended⟩ := ended_of_ne_met (c := c) (a := c.attempt i) (by simp [hending])
      rw [hremoval, hended, Option.toList_none, List.append_nil]
  | never => exact absurd hending (waited_ending_ne hpace _)

/-! ### The pause -/

/-- After an attempt that has failed, and is not the last one allowed, the saga pauses. -/
theorem phaseAfter_of_failed {e : String} (h : c.upshot (c.attempt i) = .failed e)
    (hallowed : i + 1 < c.plan.settings.maxAttempts) :
    c.phaseAfter i = .pausing (c.attempt (i + 1)).began := by
  rw [phaseAfter, h]
  exact if_pos hallowed

theorem ended_lt_began_succ (hpause : 0 < c.plan.settings.pause.nanos) (i : ℕ) :
    c.ended (c.attempt i) < (c.attempt (i + 1)).began :=
  Nat.lt_add_of_pos_right (Nat.lt_min.mpr ⟨hpause, by decide⟩)

/-- **A pause that nothing disturbs leads to the next attempt.** -/
theorem reaches_before_succ (hpause : 0 < c.plan.settings.pause.nanos) (h : c.GoesOn i) :
    c.Reaches (c.after i (c.phaseAfter i)) (c.before (i + 1)) := by
  obtain ⟨⟨e, he⟩, hallowed, hlive⟩ := h
  have hlt := ended_lt_began_succ hpause i
  rw [phaseAfter_of_failed he hallowed]
  have hpass := next?_of_due (c := c) (r := c.after i (.pausing (c.attempt (i + 1)).began)) rfl
    (hlive.mono (Nat.le_of_lt hlt)) hlt (by rw [hlive.cancelWithin_eq, Option.getD_none])
  exact .head hpass (.single (next?_of_moves (.retry rfl (Nat.le_refl _) hlive.cancelledBy_eq)))

/-- **A cancellation ends the pause**, at once if it has come before that. -/
theorem reaches_stopped {e : String} (he : c.upshot (c.attempt i) = .failed e)
    (hallowed : i + 1 < c.plan.settings.maxAttempts) {t : Instant} (ht : t ∈ c.around.cancelAt)
    (hle : t ≤ (c.attempt (i + 1)).began) :
    c.Reaches (c.after i (c.phaseAfter i))
      { c.after i (.ended .interrupted) with now := max t (c.ended (c.attempt i)) } := by
  rw [phaseAfter_of_failed he hallowed]
  by_cases hearly : t ≤ c.ended (c.attempt i)
  · rw [Nat.max_eq_right hearly]
    refine .single (next?_of_moves (.interrupt ?_ (.inr rfl)))
    rw [Surroundings.cancelledBy, ht]
    exact decide_eq_true hearly
  · rw [Nat.max_eq_left (Nat.le_of_not_le hearly)]
    have hlt := Nat.lt_of_not_le hearly
    refine reaches_of_cancelWithin (r := c.after i (.pausing (c.attempt (i + 1)).began)) rfl ?_ ?_
    · intro t' ht'
      rwa [Option.mem_unique ht' ht]
    · exact Option.filter_eq_some_iff.mpr ⟨ht, by simpa using ⟨hlt, hle⟩⟩

/-! ### The whole saga -/

theorem exists_isLast (c : ReclaimCase) : ∃ last, c.IsLast last := by
  classical
  have hends : ∃ i, ¬ c.GoesOn i :=
    ⟨c.plan.settings.maxAttempts, fun h => Nat.not_succ_lt_self h.allowed⟩
  refine ⟨Nat.find hends, fun i hi => ?_, Nat.find_spec hends⟩
  exact Classical.not_not.mp (Nat.find_min hends hi)

theorem IsLast.lt_maxAttempts {last : ℕ} (h : c.IsLast last)
    (hsome : 1 ≤ c.plan.settings.maxAttempts) : last < c.plan.settings.maxAttempts := by
  rcases Nat.eq_zero_or_pos last with rfl | hpos
  · exact hsome
  · have := (h.goes (last - 1) (by omega)).allowed
    omega

section Usable

variable (hsome : 1 ≤ c.plan.settings.maxAttempts) (hpause : 0 < c.plan.settings.pause.nanos)

include hsome hpause

theorem areUsable_of_pos : c.plan.settings.areUsable = true := by
  simp [ReclaimSettings.areUsable, Duration.isZero, Nat.ne_of_gt hsome, Nat.ne_of_gt hpause]

theorem reaches_first : c.Reaches c.begun (c.before 0) :=
  .single (next?_of_moves (.begin rfl (areUsable_of_pos hsome hpause)))

variable (hpace : 0 < c.plan.polling.interval.nanos)

include hpace

/-- **A saga makes its attempts one after the other.** -/
theorem reaches_before (hlive : LiveAt c.around c.start) (hgoes : ∀ j < i, c.GoesOn j) :
    c.Reaches c.begun (c.before i) ∧ LiveAt c.around (c.attempt i).began := by
  induction i with
  | zero => exact ⟨reaches_first hsome hpause, hlive⟩
  | succ i ih =>
      obtain ⟨hreach, hbegan⟩ := ih fun j hj => hgoes j (Nat.lt_succ_of_lt hj)
      have hgo := hgoes i (Nat.lt_succ_self i)
      exact ⟨(hreach.trans (reaches_after hpace hbegan)).trans (reaches_before_succ hpause hgo),
        hgo.live⟩

/-- **Every saga ends** in one of the ways listed. -/
theorem exists_end : ∃ made instant outcome attempt, c.EndsIn made instant outcome ∧
    c.Reaches c.begun
      ⟨instant, ⟨c.key, attempt, .ended outcome⟩, c.requests made, c.removals made⟩ := by
  cases hstart : c.around.cancelledBy c.start with
  | true =>
      refine ⟨0, c.start, .interrupted, 1, .unstarted hstart, (reaches_first hsome hpause).tail ?_⟩
      exact next?_of_moves (.interrupt hstart (.inl rfl))
  | false =>
      obtain ⟨last, hlast⟩ := exists_isLast c
      obtain ⟨hreach, hbegan⟩ :=
        reaches_before hsome hpause hpace (CatalogWait.liveAt_iff.mpr hstart) hlast.goes
      have hafter := hreach.trans (reaches_after hpace hbegan)
      cases hupshot : c.upshot (c.attempt last) with
      | removed =>
          rw [phaseAfter, hupshot] at hafter
          exact ⟨_, _, _, _, .removed hlast hupshot, hafter⟩
      | interrupted =>
          rw [phaseAfter, hupshot] at hafter
          exact ⟨_, _, _, _, .interrupted hlast hupshot, hafter⟩
      | failed e =>
          by_cases hallowed : last + 1 < c.plan.settings.maxAttempts
          -- nothing but a cancellation keeps the saga from going on
          · obtain ⟨t, ht, hle⟩ : ∃ t ∈ c.around.cancelAt, t ≤ (c.attempt (last + 1)).began := by
              by_contra hno
              push Not at hno
              exact hlast.ends ⟨⟨e, hupshot⟩, hallowed, hno⟩
            exact ⟨_, _, _, _, .stopped hlast hupshot hallowed ht hle,
              hafter.trans (reaches_stopped hupshot hallowed ht hle)⟩
          · have hmax : c.plan.settings.maxAttempts = last + 1 :=
              Nat.le_antisymm (Nat.not_lt.mp hallowed) (hlast.lt_maxAttempts hsome)
            rw [phaseAfter, hupshot] at hafter
            dsimp only at hafter
            rw [if_neg hallowed, hmax] at hafter
            exact ⟨_, _, _, _, .abandoned hlast hupshot hmax, hafter⟩

end Usable

/-! ### The end -/

theorem next?_of_ended {outcome : ReclaimOutcome} (h : r.saga.phase = .ended outcome) :
    c.next? r = none := by
  simp [next?, h, Saga.next?, SagaPhase.due?]

/-- Steps follow one another in one way only, so all of them lead to the end. -/
theorem Reaches.of_ended {start r' : SagaRun} {outcome : ReclaimOutcome}
    (hreach : c.Reaches start r) (h : r.saga.phase = .ended outcome)
    (hreach' : c.Reaches start r') : c.Reaches r' r := by
  have hunique : Relator.RightUnique fun r r' => c.next? r = some r' := fun _ _ _ h₁ h₂ =>
    Option.some.inj (h₁.symm.trans h₂)
  rcases Relation.ReflTransGen.total_of_right_unique hunique hreach hreach' with hon | hback
  · rcases hon.cases_head with rfl | ⟨_, hstep, -⟩
    · exact .refl
    · rw [next?_of_ended h] at hstep
      cases hstep
  · exact hback

theorem eq_of_ended {start r' : SagaRun} {outcome outcome' : ReclaimOutcome}
    (h : r.saga.phase = .ended outcome) (h' : r'.saga.phase = .ended outcome')
    (hreach : c.Reaches start r) (hreach' : c.Reaches start r') : r' = r := by
  rcases (hreach.of_ended h hreach').cases_head with heq | ⟨_, hstep, -⟩
  · exact heq
  · rw [next?_of_ended h'] at hstep
    cases hstep

/-- Only the end of its wait interrupts an attempt. -/
theorem ending_of_interrupted (hpace : 0 < c.plan.polling.interval.nanos) {a : Attempt}
    (h : c.upshot a = .interrupted) : (c.waited a).ending = .interrupted := by
  unfold upshot at h
  split at h
  · cases herror : (c.results a.removalsBefore).2 <;> simp [herror] at h
  · cases h
  · assumption
  · exact absurd ‹_› (waited_ending_ne hpace a)

theorem cancelledBy_of_upshot (hpace : 0 < c.plan.polling.interval.nanos) {a : Attempt}
    (h : c.upshot a = .interrupted) : c.around.cancelledBy (c.ended a) = true := by
  have hending := ending_of_interrupted hpace h
  rw [(ended_of_ne_met (by simp [hending])).2]
  exact CatalogWait.cancelledBy_of_interrupted hending

namespace EndsIn

variable {made : ℕ} {instant : Instant} {outcome : ReclaimOutcome}

/-- All attempts but the last have failed, and none begins once the saga is cancelled. -/
theorem goesOn (h : c.EndsIn made instant outcome) {j : ℕ} (hj : j + 1 < made) : c.GoesOn j := by
  cases h with
  | unstarted => exact absurd hj (Nat.not_lt_zero _)
  | removed hlast | abandoned hlast | interrupted hlast | stopped hlast =>
      exact hlast.goes j (Nat.lt_of_succ_lt_succ hj)

theorem le_maxAttempts (h : c.EndsIn made instant outcome)
    (hsome : 1 ≤ c.plan.settings.maxAttempts) : made ≤ c.plan.settings.maxAttempts := by
  cases h with
  | unstarted => exact Nat.zero_le _
  | removed hlast | abandoned hlast | interrupted hlast | stopped hlast =>
      exact hlast.lt_maxAttempts hsome

/-- An attempt that has not failed is the last. -/
theorem eq_of_not_failed (h : c.EndsIn made instant outcome) (hi : i < made)
    (hnot : ∀ e, c.upshot (c.attempt i) ≠ .failed e) : made = i + 1 := by
  by_contra hne
  obtain ⟨e, he⟩ := (h.goesOn (Nat.lt_of_le_of_ne hi (Ne.symm hne))).failed
  exact hnot e he

/-- **A saga has removed the data** if its last attempt did. -/
theorem removed_iff (h : c.EndsIn made instant outcome) (n : ℕ) :
    outcome = .removed n ↔ ∃ i < made, n = i + 1 ∧ c.upshot (c.attempt i) = .removed ∧
      ∀ j < i, c.upshot (c.attempt j) ≠ .removed := by
  constructor
  · rintro rfl
    have hearlier : ∀ {last}, c.IsLast last → ∀ j < last, c.upshot (c.attempt j) ≠ .removed :=
      fun hlast j hj hremoved => by
        obtain ⟨e, he⟩ := (hlast.goes j hj).failed
        rw [hremoved] at he
        cases he
    cases h with
    | removed hlast hupshot => exact ⟨_, Nat.lt_succ_self _, rfl, hupshot, hearlier hlast⟩
  · rintro ⟨i, hi, rfl, hremoved, -⟩
    obtain rfl := h.eq_of_not_failed hi (by simp [hremoved])
    cases h with
    | removed => rfl
    | abandoned _ h | interrupted _ h | stopped _ h => simp [hremoved] at h

/-- **A saga gives up** once all its attempts have failed. -/
theorem abandoned_iff (h : c.EndsIn made instant outcome)
    (hsome : 1 ≤ c.plan.settings.maxAttempts) (n : ℕ) (e : String) :
    outcome = .abandoned n e ↔ n = c.plan.settings.maxAttempts ∧
      made = c.plan.settings.maxAttempts ∧
      (∀ i < made, ∃ e, c.upshot (c.attempt i) = .failed e) ∧
      c.upshot (c.attempt (made - 1)) = .failed e := by
  constructor
  · rintro rfl
    cases h with
    | @abandoned last _ hlast hupshot hmax =>
        refine ⟨hmax.symm, hmax.symm, fun i hi => ?_, hupshot⟩
        rcases Nat.lt_succ_iff_lt_or_eq.mp hi with hlt | rfl
        · exact (hlast.goes i hlt).failed
        · exact ⟨e, hupshot⟩
  · rintro ⟨rfl, hmade, -, hlast⟩
    cases h with
    | unstarted => exact absurd hsome (by omega)
    | removed _ h | interrupted _ h => simp [h] at hlast
    | abandoned _ h hmax =>
        obtain rfl := Upshot.failed.inj (h.symm.trans hlast)
        rw [hmax]
    | stopped _ _ hallowed => omega

theorem outcome_cases (h : c.EndsIn made instant outcome)
    (hpace : 0 < c.plan.polling.interval.nanos) :
    (∃ n, outcome = .removed n) ∨ (∃ n e, outcome = .abandoned n e) ∨
      outcome = .interrupted ∧ c.around.cancelledBy instant = true := by
  cases h with
  | removed => exact .inl ⟨_, rfl⟩
  | abandoned => exact .inr (.inl ⟨_, _, rfl⟩)
  | unstarted hcancelled => exact .inr (.inr ⟨rfl, hcancelled⟩)
  | interrupted _ h => exact .inr (.inr ⟨rfl, cancelledBy_of_upshot hpace h⟩)
  | stopped _ _ _ ht =>
      exact .inr (.inr ⟨rfl, by simp [Surroundings.cancelledBy, Option.mem_def.mp ht]⟩)

/-- The clock can tell when the wait of each attempt ends. -/
theorem waited_le (h : c.EndsIn made instant outcome) (hdeadlines : c.HasDeadlines)
    (hi : i < made) : (c.waited (c.attempt i)).instant ≤ Instant.latest := by
  have hgoes : ∀ j < i, c.GoesOn j := fun j hj =>
    h.goesOn (Nat.lt_of_le_of_lt (Nat.succ_le_of_lt hj) hi)
  exact Nat.le_trans (CatalogWait.runFrom_le_deadline (Nat.le_add_right ..)).1
    (hdeadlines i hgoes)

/-- A saga that is not interrupted ends with its last attempt. -/
theorem instant_eq (h : c.EndsIn made instant outcome) (hne : outcome ≠ .interrupted) :
    instant = c.ended (c.attempt (made - 1)) := by
  cases h with
  | removed | abandoned => rfl
  | unstarted | interrupted | stopped => exact absurd rfl hne

end EndsIn

/-! ### Attempts that last until the time is up -/

/-- An attempt whose wait lasts until the time is up has failed then. -/
theorem ended_of_timedOut {a : Attempt} {time : Nat}
    (h : (c.waited a).ending = .timedOut time) :
    c.ended a = a.began + c.plan.polling.timeout.nanos ∧
      c.upshot a = .failed (CatalogWait.Failure.timedOut c.key.condition
        c.plan.polling.timeout.nanos).message := by
  obtain ⟨hinstant, rfl⟩ := CatalogWait.runFrom_of_timedOut (Nat.le_add_right _ _) h
  refine ⟨(ended_of_ne_met (by simp [h])).2.trans hinstant, ?_⟩
  rw [upshot, h]

theorem began_of_timedOut (h : ∀ j < i, ∃ time, (c.waited (c.attempt j)).ending = .timedOut time) :
    (c.attempt i).began = c.start +
      (i * c.plan.polling.timeout.nanos + i * c.plan.settings.pause.pauseNanos) := by
  induction i with
  | zero => simp [attempt]
  | succ i ih =>
      obtain ⟨time, htime⟩ := h i (Nat.lt_succ_self i)
      rw [attempt, (ended_of_timedOut htime).1, ih fun j hj => h j (Nat.lt_succ_of_lt hj)]
      ring

/-- A saga whose attempts all last until the time is up takes that time for each of them, and pauses
in between. -/
theorem EndsIn.instant_of_timedOut {made : ℕ} {instant : Instant} {outcome : ReclaimOutcome}
    (h : c.EndsIn made instant outcome)
    (htimes : ∀ i < made, ∃ time, (c.waited (c.attempt i)).ending = .timedOut time)
    (hne : outcome ≠ .interrupted) :
    instant = c.start + (c.plan.settings.maxAttempts * c.plan.polling.timeout.nanos +
      (c.plan.settings.maxAttempts - 1) * c.plan.settings.pause.pauseNanos) := by
  cases h with
  | unstarted | interrupted | stopped => exact absurd rfl hne
  | @removed last _ hupshot =>
      obtain ⟨time, htime⟩ := htimes last (Nat.lt_succ_self last)
      rw [(ended_of_timedOut htime).2] at hupshot
      cases hupshot
  | @abandoned last _ _ _ hmax =>
      obtain ⟨time, htime⟩ := htimes last (Nat.lt_succ_self last)
      rw [(ended_of_timedOut htime).1, hmax, Nat.add_sub_cancel,
        began_of_timedOut fun j hj => htimes j (Nat.lt_succ_of_lt hj)]
      ring

/-- An attempt lasts until the time is up if its condition never holds. -/
theorem waited_of_never (hpace : 0 < c.plan.polling.interval.nanos)
    (hcancel : c.around.cancelAt = none)
    (hnever : ∀ now, c.key.condition.holds (c.around.catalogAt now) = false) (a : Attempt) :
    ∃ time, (c.waited a).ending = .timedOut time := by
  have hrun := CatalogWait.run_of_late (w := ⟨c.key.condition, c.plan.polling, a.began⟩)
    (s := c.around) hpace (fun t ht => by simp [hcancel] at ht) fun k _ => hnever _
  exact ⟨_, by rw [waited, hrun]⟩

/-- An attempt goes on to its removal at once if its condition holds when it begins. -/
theorem waited_of_held (hpace : 0 < c.plan.polling.interval.nanos)
    (hcancel : c.around.cancelAt = none) {a : Attempt}
    (hheld : c.key.condition.holds (c.around.catalogAt a.began) = true) :
    (c.waited a).ending = .met ∧ (c.waited a).instant = a.began := by
  have hrun := CatalogWait.run_of_met (w := ⟨c.key.condition, c.plan.polling, a.began⟩)
    (s := c.around) (k := 0) hpace (by simp) (by simpa using hheld)
    (fun t ht => by simp [hcancel] at ht)
  simp [waited, hrun]

/-- **How a saga goes** that may make an attempt, that pauses between attempts and between looks at
the catalog, and whose time limits are all over at instants that the clock can tell.  It comes to an
end, whatever it does on the way.  Of the attempts that are allowed it makes a number `made`, each
of them after all before it have failed:

* it asks for a newer catalog when an attempt begins, and it removes the data when, and only when,
  the wait of an attempt succeeds;
* the next attempt begins when the pause after a failed one is over, and the saga ends with its last
  attempt, unless it is interrupted;
* the data is removed exactly if some attempt removes it, which is the first to do so, and the saga
  gives up exactly if all attempts that are allowed have failed, with the error of the last one;
* otherwise it is interrupted, and it was cancelled before that;
* it takes the time of all waits and of the pauses between them if every wait lasts until the time
  is up. -/
theorem saga_by_attempts (c : ReclaimCase) (hsome : 1 ≤ c.plan.settings.maxAttempts)
    (hpause : 0 < c.plan.settings.pause.nanos) (hpace : 0 < c.plan.polling.interval.nanos)
    (hdeadlines : c.HasDeadlines) :
    ∃ r outcome made, c.Reaches c.begun r ∧ (∀ r', c.Reaches c.begun r' → c.Reaches r' r) ∧
      r.saga.phase = .ended outcome ∧
      made ≤ c.plan.settings.maxAttempts ∧
      (∀ i < made, (c.waited (c.attempt i)).instant ≤ Instant.latest) ∧
      r.requests = (List.range made).map (fun i => (c.attempt i).began) ∧
      r.removals = (List.range made).filterMap (fun i => c.removal? (c.attempt i)) ∧
      (c.attempt 0).began = c.start ∧
      (∀ i, i + 1 < made → (∃ e, c.upshot (c.attempt i) = .failed e) ∧
        (c.attempt (i + 1)).began =
          c.ended (c.attempt i) + c.plan.settings.pause.pauseNanos) ∧
      (∀ n, outcome = .removed n ↔ ∃ i < made, n = i + 1 ∧
        c.upshot (c.attempt i) = .removed ∧ ∀ j < i, c.upshot (c.attempt j) ≠ .removed) ∧
      (∀ n e, outcome = .abandoned n e ↔ n = c.plan.settings.maxAttempts ∧
        made = c.plan.settings.maxAttempts ∧
        (∀ i < made, ∃ e, c.upshot (c.attempt i) = .failed e) ∧
        c.upshot (c.attempt (made - 1)) = .failed e) ∧
      ((∃ n, outcome = .removed n) ∨ (∃ n e, outcome = .abandoned n e) ∨
        outcome = .interrupted ∧ c.around.cancelledBy r.now = true) ∧
      (outcome ≠ .interrupted → r.now = c.ended (c.attempt (made - 1))) ∧
      ((∀ i < made, ∃ time, (c.waited (c.attempt i)).ending = .timedOut time) →
        outcome ≠ .interrupted →
        r.now = c.start + (c.plan.settings.maxAttempts * c.plan.polling.timeout.nanos +
          (c.plan.settings.maxAttempts - 1) * c.plan.settings.pause.pauseNanos)) := by
  obtain ⟨made, instant, outcome, number, hend, hreach⟩ := exists_end hsome hpause hpace
  exact ⟨_, outcome, made, hreach, fun _ => hreach.of_ended rfl, rfl, hend.le_maxAttempts hsome,
    fun i hi => hend.waited_le hdeadlines hi, rfl, rfl, rfl,
    fun i hi => ⟨(hend.goesOn hi).failed, rfl⟩, hend.removed_iff, hend.abandoned_iff hsome,
    hend.outcome_cases hpace, hend.instant_eq, hend.instant_of_timedOut⟩

/-- The table is not served, another one is, and the first removal fails after two seconds.  The
second one begins five seconds after that and succeeds. -/
theorem removed_by_second_attempt :
    let c : ReclaimCase := ⟨⟨⟨2, .ofMillis 5000⟩, ⟨.ofMillis 1000, .ofMillis 1000⟩⟩,
      .table "orders", ⟨fun _ => some ⟨[("customers", [(0, ⟨["0_65535"]⟩)])]⟩, none⟩,
      fun n => if n = 0 then (2000000000, some "device busy") else (3000000000, none), 0⟩
    1 ≤ c.plan.settings.maxAttempts ∧ 0 < c.plan.settings.pause.nanos ∧
      0 < c.plan.polling.interval.nanos ∧ c.HasDeadlines ∧
      ∃ r, c.Reaches c.begun r ∧ r.saga.phase = .ended (.removed 2) ∧ r.now = 10000000000 := by
  intro c
  have hpace : 0 < c.plan.polling.interval.nanos := by decide
  have hheld : ∀ a, (c.waited a).ending = .met ∧ (c.waited a).instant = a.began := fun a =>
    waited_of_held hpace rfl rfl
  have hremoval : ∀ a, c.removal? a = some a.began := fun a => by
    rw [removal?_of_met (hheld a).1, (hheld a).2]
  have hended : ∀ a, c.ended a = a.began + (c.results a.removalsBefore).1 := fun a => by
    rw [ended, hremoval, (hheld a).2]
    rfl
  have hsecond : c.attempt 1 = ⟨7000000000, 1⟩ := by
    rw [attempt, hended, hremoval]
    decide
  have hfailed : c.upshot (c.attempt 0) = .failed "device busy" := by
    rw [upshot, (hheld _).1]
    rfl
  have hdone : c.upshot (c.attempt 1) = .removed := by
    rw [upshot, (hheld _).1, hsecond]
    rfl
  have hdeadlines : c.HasDeadlines := by
    intro i hgoes
    match i with
    | 0 => decide
    | 1 =>
        rw [hsecond]
        decide
    | i + 2 => exact absurd (hgoes 1 (by omega)).allowed (by decide)
  obtain ⟨r, outcome, made, hreach, -, hphase, hmade, -, -, -, -, -, hremoved, habandoned, hcases,
    hnow, -⟩ := saga_by_attempts c (by decide) (by decide) hpace hdeadlines
  have hmade : made ≤ 2 := hmade
  refine ⟨by decide, by decide, hpace, hdeadlines, r, hreach, ?_⟩
  rcases hcases with ⟨n, rfl⟩ | ⟨n, e, rfl⟩ | ⟨-, hcancelled⟩
  · obtain ⟨i, hi, rfl, hi', -⟩ := (hremoved n).mp rfl
    obtain rfl | rfl : i = 0 ∨ i = 1 := by omega
    · rw [hfailed] at hi'
      cases hi'
    · obtain rfl : made = 2 := by omega
      refine ⟨hphase, ?_⟩
      rw [hnow (by simp), hended, hsecond]
      decide
  · obtain ⟨-, rfl, -, hlast⟩ := (habandoned n e).mp rfl
    have hlast : c.upshot (c.attempt 1) = .failed e := hlast
    rw [hdone] at hlast
    cases hlast
  · cases hcancelled

/-- A pause that is meant to last longer than thirty years is cut short, and so is the whole saga.
-/
theorem abandoned_before_pause_is_over :
    let c : ReclaimCase := ⟨⟨⟨2, .ofMillis 1000000000000⟩, ⟨.ofMillis 1000, .ofMillis 1000⟩⟩,
      .table "orders", ⟨fun _ => none, none⟩, fun _ => (0, none), 0⟩
    (∀ i, ∃ time, (c.waited (c.attempt i)).ending = .timedOut time) ∧
      (c.attempt 1).began ≠ c.ended (c.attempt 0) + c.plan.settings.pause.nanos ∧
      ∃ r, c.Reaches c.begun r ∧ c.next? r = none ∧
        r.now ≠ c.plan.settings.maxAttempts * c.plan.polling.timeout.nanos +
          (c.plan.settings.maxAttempts - 1) * c.plan.settings.pause.nanos := by
  intro c
  have hpace : 0 < c.plan.polling.interval.nanos := by decide
  have htimes := waited_of_never (c := c) hpace rfl fun _ => rfl
  obtain ⟨made, instant, outcome, number, hend, hreach⟩ :=
    exists_end (c := c) (by decide) (by decide) hpace
  have hne : outcome ≠ .interrupted := by
    rintro rfl
    simpa [Surroundings.cancelledBy, c] using hend.outcome_cases hpace
  have hinstant := hend.instant_of_timedOut (fun i _ => htimes _) hne
  refine ⟨fun i => htimes _, ?_, _, hreach, next?_of_ended rfl, ?_⟩
  · show c.ended (c.attempt 0) + c.plan.settings.pause.pauseNanos ≠ _
    rw [ne_eq, Nat.add_left_cancel_iff]
    decide
  · show instant ≠ _
    rw [hinstant]
    decide

end ReclaimCase

end ShardKeeper
