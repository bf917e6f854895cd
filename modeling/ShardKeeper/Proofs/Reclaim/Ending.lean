import ShardKeeper.Proofs.Catalog.Wait
import ShardKeeper.Proofs.Reclaim.Course

/-!
# Sagas come to an end

A saga goes through a bounded number of attempts, and each attempt through a
bounded number of looks.  This file counts the steps that are left and shows
that each step takes one away, whatever the catalog says, however late the steps
are and whatever becomes of the removals.  A saga that has not ended waits for a
removal or for an instant, and acts when that has come.

## Main definitions

* `Saga.InSteps` — what a saga may become in a number of steps.
* `Saga.stepsLeft` — how many steps are left at most.

## Main results

* `Saga.stepsLeft_move`, `Saga.stepsLeft_afterRemoval` — each step takes one away.
* `Saga.InSteps.steps_le` — no saga makes more than `ReclaimPlan.mostSteps` steps.
* `Saga.InSteps.outcome_ne` — under usable settings none is turned away.
* `Saga.exists_due` — and none is stuck before its end.
* `Node.Course.inSteps` — the sagas of a node are such sagas.
-/

namespace ShardKeeper

/-- The most steps of an attempt and of the pause after it: it asks for a newer catalog, looks at
the catalog and removes the data, the removal ends, and the pause too. -/
def ReclaimPlan.attemptSteps (plan : ReclaimPlan) : Nat := plan.polling.rounds + 4

/-- The most steps of a saga. -/
def ReclaimPlan.mostSteps (plan : ReclaimPlan) : Nat :=
  plan.settings.maxAttempts * plan.attemptSteps

namespace Saga

variable {plan : ReclaimPlan} {now : Instant} {cancelled : Bool} {catalog : Option Catalog}
variable {s t : Saga} {effect : SagaEffect} {steps : Nat}

/-- What the saga `s` may become in a number of steps, each of them taken at any instant, with any
catalog, cancelled or not, and with any result of the removal that it waits for. -/
inductive InSteps (plan : ReclaimPlan) (s : Saga) : Nat → Saga → Prop where
  | start : InSteps plan s 0 s
  | move {steps : Nat} {t u : Saga} {now : Instant} {cancelled : Bool} {catalog : Option Catalog}
      {effect : SagaEffect} (h : InSteps plan s steps t)
      (hmove : t.next? plan now cancelled catalog = some (u, effect)) :
      InSteps plan s (steps + 1) u
  | finish {steps : Nat} {t : Saga} (now : Instant) (error : Option String)
      (h : InSteps plan s steps t) (hphase : t.phase = .removing) :
      InSteps plan s (steps + 1) (t.afterRemoval plan now error)

/-! ### The steps that are left -/

/-- A saga waits at the pace of its plan and pauses only before another attempt. -/
def Fits (plan : ReclaimPlan) (s : Saga) : Prop :=
  match s.phase with
  | .looking wait _ => wait.settings = plan.polling
  | .pausing _ => s.attempt < plan.settings.maxAttempts
  | _ => True

/-- The most steps of the attempts after the present one. -/
def laterSteps (plan : ReclaimPlan) (s : Saga) : Nat :=
  (plan.settings.maxAttempts - s.attempt) * plan.attemptSteps

/-- How many steps a saga has left at most. -/
def stepsLeft (plan : ReclaimPlan) (s : Saga) : Nat :=
  match s.phase with
  | .fresh => s.laterSteps plan + (plan.polling.rounds + 4)
  | .starting => s.laterSteps plan + (plan.polling.rounds + 3)
  | .looking wait next => s.laterSteps plan + (wait.looksLeft next + 1)
  | .removing => s.laterSteps plan + 1
  | .pausing _ => s.laterSteps plan
  | .ended _ => 0

/-- A saga that is just asked for has the steps of all its attempts left. -/
theorem stepsLeft_ofKey (key : ReclaimKey) (hsome : 0 < plan.settings.maxAttempts) :
    (ofKey key).stepsLeft plan = plan.mostSteps := by
  obtain ⟨more, hmore⟩ : ∃ more, plan.settings.maxAttempts = more + 1 :=
    Nat.exists_eq_add_of_lt hsome |>.imp fun more h => by omega
  rw [ReclaimPlan.mostSteps, hmore, Nat.succ_mul]
  show (plan.settings.maxAttempts - 1) * plan.attemptSteps + plan.attemptSteps = _
  rw [hmore, Nat.add_sub_cancel]

/-- A failure ends the attempt: it leaves the attempts after it. -/
theorem fits_afterFailure (plan : ReclaimPlan) (now : Instant) (s : Saga) (error : String) :
    Fits plan (s.afterFailure plan now error) ∧
      (s.afterFailure plan now error).stepsLeft plan ≤ s.laterSteps plan := by
  unfold afterFailure
  split
  · rename_i hmore
    exact ⟨hmore, Nat.le_refl _⟩
  · exact ⟨trivial, Nat.zero_le _⟩

theorem fits_afterRemoval (plan : ReclaimPlan) (now : Instant) (s : Saga)
    (error : Option String) :
    Fits plan (s.afterRemoval plan now error) ∧
      (s.afterRemoval plan now error).stepsLeft plan ≤ s.laterSteps plan := by
  cases error with
  | none => exact ⟨trivial, Nat.zero_le _⟩
  | some e => exact s.fits_afterFailure plan now e

/-- The end of a removal takes a step away. -/
theorem stepsLeft_afterRemoval (plan : ReclaimPlan) (now : Instant) (hphase : s.phase = .removing)
    (error : Option String) :
    (s.afterRemoval plan now error).stepsLeft plan < s.stepsLeft plan := by
  refine Nat.lt_of_le_of_lt (fits_afterRemoval plan now s error).2 ?_
  rw [stepsLeft, hphase]
  exact Nat.lt_succ_self _

theorem Fits.move (h : Fits plan s) (hmove : Moves plan now cancelled catalog s t effect) :
    Fits plan t := by
  cases hmove with
  | ask => exact rfl
  | again hphase =>
      unfold Fits at h
      rw [hphase] at h
      exact h
  | giveUp => exact (fits_afterFailure plan now s _).1
  | _ => trivial

/-- **Each step of a saga takes one away**, however late it is and whatever the catalog says. -/
theorem stepsLeft_move (hpace : 0 < plan.polling.interval.nanos) (hfits : Fits plan s)
    (hmove : Moves plan now cancelled catalog s t effect) :
    t.stepsLeft plan < s.stepsLeft plan := by
  unfold Fits at hfits
  rw [stepsLeft.eq_def plan s]
  cases hmove with
  | begin hphase =>
      rw [hphase]
      exact Nat.add_lt_add_left (Nat.lt_succ_self _) _
  | refuse hphase =>
      rw [hphase]
      exact Nat.lt_add_left _ (Nat.succ_pos _)
  | interrupt _ hphase =>
      show 0 < _
      rcases hphase with hphase | hphase
      · rw [hphase]
        exact Nat.lt_add_left _ (Nat.succ_pos _)
      · cases hs : s.phase with
        | looking wait next => exact Nat.lt_add_left _ (Nat.succ_pos _)
        | pausing next =>
            rw [hs] at hfits
            exact Nat.mul_pos (Nat.sub_pos_of_lt hfits) (Nat.succ_pos _)
        | _ => simp [hs, SagaPhase.due?] at hphase
  | ask hphase =>
      rw [hphase]
      show s.laterSteps plan + (CatalogWait.looksLeft ⟨_, plan.polling, now⟩ now + 1) < _
      rw [CatalogWait.looksLeft_started]
      exact Nat.add_lt_add_left (Nat.lt_succ_self _) _
  | remove hphase =>
      rw [hphase]
      exact Nat.add_lt_add_left (Nat.succ_lt_succ (Nat.succ_pos _)) _
  | again hphase hdue _ _ hearly =>
      rw [hphase] at hfits ⊢
      have hless := CatalogWait.looksLeft_nextPoll (hfits ▸ hpace) hdue hearly
      exact Nat.add_lt_add_left (Nat.succ_lt_succ hless) _
  | giveUp hphase =>
      rw [hphase]
      exact Nat.lt_of_le_of_lt (fits_afterFailure plan now s _).2
        (Nat.lt_add_of_pos_right (Nat.succ_pos _))
  | retry hphase =>
      rw [hphase] at hfits ⊢
      -- one attempt less is left, and the one that begins has one step less than it has at most
      obtain ⟨more, hmore⟩ := Nat.exists_eq_add_of_lt hfits
      show (plan.settings.maxAttempts - (s.attempt + 1)) * plan.attemptSteps +
        (plan.polling.rounds + 3) < (plan.settings.maxAttempts - s.attempt) * plan.attemptSteps
      rw [show plan.settings.maxAttempts - s.attempt = more + 1 by omega,
        show plan.settings.maxAttempts - (s.attempt + 1) = more by omega, Nat.succ_mul]
      exact Nat.add_lt_add_left (Nat.lt_succ_self _) _

theorem phase_afterFailure_ne (plan : ReclaimPlan) (now : Instant) (s : Saga) (error : String) :
    (s.afterFailure plan now error).phase ≠ .ended .invalidSettings := by
  rcases s.afterFailure_cases plan now error with heq | heq <;> simp [heq]

theorem fits_ofKey (plan : ReclaimPlan) (key : ReclaimKey) : Fits plan (ofKey key) := trivial

namespace InSteps

variable {key : ReclaimKey}

/-- A step counts towards the steps that were left before it. -/
theorem fits (hpace : 0 < plan.polling.interval.nanos) (hs : Fits plan s)
    (h : InSteps plan s steps t) : Fits plan t ∧ steps + t.stepsLeft plan ≤ s.stepsLeft plan := by
  induction h with
  | start => exact ⟨hs, Nat.le_of_eq (Nat.zero_add _)⟩
  | move _ hmove ih =>
      have hmoves := moves_iff.mpr hmove
      have hless := stepsLeft_move hpace ih.1 hmoves
      exact ⟨ih.1.move hmoves, by omega⟩
  | finish now error _ hphase ih =>
      have hless := stepsLeft_afterRemoval plan now hphase error
      exact ⟨(fits_afterRemoval plan now _ error).1, by omega⟩

/-- **No saga makes more steps than its attempts have.** -/
theorem steps_le (hpace : 0 < plan.polling.interval.nanos)
    (hsome : 0 < plan.settings.maxAttempts) (h : InSteps plan (ofKey key) steps t) :
    steps ≤ plan.mostSteps := by
  have hcount := (h.fits hpace (fits_ofKey plan key)).2
  rw [stepsLeft_ofKey key hsome] at hcount
  exact Nat.le_of_add_right_le hcount

/-- **Under usable settings no saga is turned away.** -/
theorem outcome_ne (husable : plan.settings.areUsable = true)
    (h : InSteps plan (ofKey key) steps t) : t.phase ≠ .ended .invalidSettings := by
  induction h with
  | start => exact SagaPhase.noConfusion
  | move _ hmove ih =>
      cases moves_iff.mpr hmove with
      | refuse _ hunusable =>
          rw [husable] at hunusable
          cases hunusable
      | giveUp => exact phase_afterFailure_ne plan _ _ _
      | _ => simp
  | finish now error _ _ _ =>
      cases error with
      | none => simp [Saga.afterRemoval]
      | some e => exact phase_afterFailure_ne plan now _ e

end InSteps

/-- **No saga is stuck before its end**: it removes data, or it can act as soon as an instant has
come. -/
theorem exists_due (plan : ReclaimPlan) (hlive : s.isOver = false) :
    s.phase = .removing ∨ ∃ due, ∀ now cancelled catalog, due ≤ now →
      (s.next? plan now cancelled catalog).isSome = true := by
  cases hphase : s.phase with
  | fresh =>
      refine Or.inr ⟨0, fun now cancelled catalog _ => ?_⟩
      rw [next?, hphase]
      dsimp only
      split <;> rfl
  | starting =>
      refine Or.inr ⟨0, fun now cancelled catalog _ => ?_⟩
      rw [next?, hphase]
      dsimp only
      split <;> rfl
  | looking wait next =>
      refine Or.inr ⟨next, fun now cancelled catalog hdue => ?_⟩
      rw [next?, hphase]
      simp [hdue]
  | removing => exact Or.inl rfl
  | pausing next =>
      refine Or.inr ⟨next, fun now cancelled catalog hdue => ?_⟩
      rw [next?, hphase]
      dsimp only
      rw [if_pos hdue]
      split <;> rfl
  | ended outcome => exact absurd hphase (isOver_eq_false_iff.mp hlive outcome)

end Saga

/-! ### The sagas of a node -/

namespace Node

variable {n m : Node}

/-- Every saga of a node has become what it is step by step, since it was asked for. -/
def SagasInSteps (n : Node) : Prop :=
  ∀ s ∈ n.desk.sagas, ∃ steps, Saga.InSteps n.desk.plan (.ofKey s.key) steps s

theorem SagasInSteps.step (h : n.SagasInSteps) (hstep : n.Step m) : m.SagasInSteps := by
  unfold SagasInSteps
  rw [hstep.plan_eq]
  rcases hstep.cases with haside | ⟨key, saga, ticket, hasked⟩ |
    ⟨_, saga, ticket, s, s', -, -, hmoved⟩
  · rw [haside.desk]
    exact h
  · obtain ⟨locks, -, -, hdesk⟩ := ReclaimDesk.request_eq_some hasked.desk
    rw [hdesk]
    intro t ht
    rcases List.mem_append.mp ht with hold | hnew
    · exact h t hold
    · rw [List.mem_singleton.mp hnew]
      exact ⟨0, .start⟩
  · rw [hmoved.desk]
    intro t ht
    rcases List.mem_or_eq_of_mem_set ht with hold | rfl
    · exact h t hold
    · obtain ⟨steps, hsteps⟩ := h s (List.mem_of_getElem? hmoved.saga)
      rw [hmoved.step.key_eq]
      cases hmoved.step with
      | move hmoves => exact ⟨steps + 1, .move hsteps (Saga.moves_iff.mp hmoves)⟩
      | finish hphase heq =>
          rw [heq]
          exact ⟨steps + 1, .finish _ _ hsteps hphase⟩

/-- **The sagas of a node go step by step**, in every course of it. -/
theorem Course.inSteps (h : n.Course m) (hn : n.BeforeReclaims) : m.SagasInSteps := by
  obtain ⟨⟨plan, hdesk⟩, -⟩ := hn
  induction h with
  | refl =>
      unfold SagasInSteps
      rw [hdesk]
      exact fun s hs => absurd hs List.not_mem_nil
  | tail _ hstep ih => exact ih.step hstep

end Node

end ShardKeeper
