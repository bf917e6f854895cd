import Mathlib.Data.List.Infix
import ShardKeeper.Reclaim.Saga

/-!
# What a saga does

The steps of a saga, once and for all: everything that is proved of sagas goes
through `Saga.Moves`, which lists them, and `Saga.afterRemoval_cases` for the
end of a removal.

## Main definitions

* `Saga.Moves` — the steps that `Saga.next?` can take, one constructor each.
* `Saga.IsPast` — a saga that has begun a removal is past it until its end.

## Main results

* `Saga.moves_iff` — these are the steps.
* `Saga.IsPast.move`, `Saga.IsPast.afterRemoval` — a saga stays past a removal.

A removal begins in one place only, `Moves.remove`, and there the condition
holds of the catalog at hand.  After a removal that has failed there is no way
back to that place but through a pause and a wait begun afresh, which is what
`IsPast` says.
-/

namespace ShardKeeper

namespace Saga

/-- The steps of a saga at the instant `now`, and what they do to the world around it. -/
inductive Moves (plan : ReclaimPlan) (now : Instant) (cancelled : Bool) (catalog : Option Catalog)
    (s : Saga) : Saga → SagaEffect → Prop where
  | begin (hphase : s.phase = .fresh) (husable : plan.settings.areUsable = true) :
      Moves plan now cancelled catalog s { s with phase := .starting } .nothing
  | refuse (hphase : s.phase = .fresh) (hunusable : plan.settings.areUsable = false) :
      Moves plan now cancelled catalog s { s with phase := .ended .invalidSettings } .nothing
  /-- A saga that is cancelled stops wherever it would otherwise go on or wait for an instant. -/
  | interrupt (hcancelled : cancelled = true)
      (hphase : s.phase = .starting ∨ s.phase.due?.isSome = true) :
      Moves plan now cancelled catalog s { s with phase := .ended .interrupted } .nothing
  | ask (hphase : s.phase = .starting) (hlive : cancelled = false) :
      Moves plan now cancelled catalog s
        { s with phase := .looking ⟨s.key.condition, plan.polling, now⟩ now } .request
  | remove {wait : CatalogWait} {next : Instant} (hphase : s.phase = .looking wait next)
      (hdue : next ≤ now) (hlive : cancelled = false)
      (hholds : wait.condition.holds catalog = true) :
      Moves plan now cancelled catalog s { s with phase := .removing } .remove
  | again {wait : CatalogWait} {next : Instant} (hphase : s.phase = .looking wait next)
      (hdue : next ≤ now) (hlive : cancelled = false)
      (hfails : wait.condition.holds catalog = false) (hearly : now < wait.deadline) :
      Moves plan now cancelled catalog s { s with phase := .looking wait (wait.nextPoll now) }
        .nothing
  | giveUp {wait : CatalogWait} {next : Instant} (hphase : s.phase = .looking wait next)
      (hdue : next ≤ now) (hlive : cancelled = false)
      (hfails : wait.condition.holds catalog = false) (hlate : wait.deadline ≤ now) :
      Moves plan now cancelled catalog s
        (s.afterFailure plan now
          (CatalogWait.Failure.timedOut wait.condition (now - wait.started)).message) .nothing
  | retry {next : Instant} (hphase : s.phase = .pausing next) (hdue : next ≤ now)
      (hlive : cancelled = false) :
      Moves plan now cancelled catalog s { s with attempt := s.attempt + 1, phase := .starting }
        .nothing

variable {plan : ReclaimPlan} {now : Instant} {cancelled : Bool} {catalog : Option Catalog}
variable {s s' : Saga} {effect : SagaEffect}

theorem moves_of_look {wait : CatalogWait} {next : Instant}
    (hphase : s.phase = .looking wait next) (hdue : cancelled = true ∨ next ≤ now)
    (hlook : s.look plan wait now cancelled catalog = (s', effect)) :
    Moves plan now cancelled catalog s s' effect := by
  unfold look CatalogWait.poll at hlook
  cases hcancelled : cancelled with
  | true =>
      rw [hcancelled] at hlook
      cases hlook
      exact .interrupt rfl (Or.inr (by rw [hphase]; rfl))
  | false =>
      have hnext : next ≤ now := hdue.resolve_left (by simp [hcancelled])
      rw [hcancelled] at hlook
      cases hholds : wait.condition.holds catalog with
      | true =>
          rw [hholds] at hlook
          cases hlook
          exact .remove hphase hnext rfl hholds
      | false =>
          rw [hholds] at hlook
          by_cases hlate : wait.deadline ≤ now
          · simp only [Bool.false_eq_true, if_false, if_pos hlate] at hlook
            cases hlook
            exact .giveUp hphase hnext rfl hholds hlate
          · simp only [Bool.false_eq_true, if_false, if_neg hlate] at hlook
            cases hlook
            exact .again hphase hnext rfl hholds (Nat.lt_of_not_le hlate)

theorem moves_of_next? (h : s.next? plan now cancelled catalog = some (s', effect)) :
    Moves plan now cancelled catalog s s' effect := by
  cases hphase : s.phase with
  | fresh =>
      simp only [next?, hphase] at h
      cases husable : plan.settings.areUsable with
      | true =>
          rw [husable] at h
          cases h
          exact .begin hphase husable
      | false =>
          rw [husable] at h
          cases h
          exact .refuse hphase husable
  | starting =>
      simp only [next?, hphase] at h
      cases hcancelled : cancelled with
      | true =>
          rw [hcancelled] at h
          cases h
          exact .interrupt rfl (Or.inl hphase)
      | false =>
          rw [hcancelled] at h
          cases h
          exact .ask hphase rfl
  | looking wait next =>
      simp only [next?, hphase, Option.ite_none_right_eq_some, Option.some.injEq, Bool.or_eq_true,
        decide_eq_true_eq] at h
      exact moves_of_look hphase h.1 h.2
  | removing => simp only [next?, hphase, reduceCtorEq] at h
  | pausing next =>
      simp only [next?, hphase] at h
      cases hcancelled : cancelled with
      | true =>
          rw [hcancelled] at h
          cases h
          exact .interrupt rfl (Or.inr (by rw [hphase]; rfl))
      | false =>
          rw [hcancelled] at h
          by_cases hdue : next ≤ now
          · rw [if_pos hdue] at h
            cases h
            exact .retry hphase hdue rfl
          · rw [if_neg hdue] at h
            cases h
  | ended outcome => simp only [next?, hphase, reduceCtorEq] at h

/-- **The steps of a saga.** -/
theorem moves_iff : Moves plan now cancelled catalog s s' effect ↔
    s.next? plan now cancelled catalog = some (s', effect) := by
  refine ⟨fun h => ?_, moves_of_next?⟩
  cases h with
  | begin hphase husable => simp [next?, hphase, husable]
  | refuse hphase hunusable => simp [next?, hphase, hunusable]
  | interrupt hcancelled hphase =>
      rcases hphase with hphase | hphase
      · simp [next?, hphase, hcancelled]
      · cases hs : s.phase with
        | looking wait next => simp [next?, hs, hcancelled, look, CatalogWait.poll]
        | pausing next => simp [next?, hs, hcancelled]
        | fresh => simp [hs, SagaPhase.due?] at hphase
        | starting => simp [hs, SagaPhase.due?] at hphase
        | removing => simp [hs, SagaPhase.due?] at hphase
        | ended outcome => simp [hs, SagaPhase.due?] at hphase
  | ask hphase hlive => simp [next?, hphase, hlive]
  | remove hphase hdue hlive hholds =>
      simp [next?, hphase, hdue, hlive, look, CatalogWait.poll, hholds]
  | again hphase hdue hlive hfails hearly =>
      simp [next?, hphase, hdue, hlive, look, CatalogWait.poll, hfails, Nat.not_le.mpr hearly]
  | giveUp hphase hdue hlive hfails hlate =>
      simp [next?, hphase, hdue, hlive, look, CatalogWait.poll, hfails, hlate]
  | retry hphase hdue hlive => simp [next?, hphase, hdue, hlive]

/-- A failure leads to a pause or, on the last attempt, to the end. -/
theorem afterFailure_cases (s : Saga) (plan : ReclaimPlan) (now : Instant) (error : String) :
    s.afterFailure plan now error =
        { s with phase := .pausing (now + plan.settings.pause.pauseNanos) } ∨
      s.afterFailure plan now error =
        { s with phase := .ended (.abandoned plan.settings.maxAttempts error) } := by
  rw [afterFailure]
  split
  · exact Or.inl rfl
  · exact Or.inr rfl

/-- A removal leads to a pause, if it has failed, or to the end. -/
theorem afterRemoval_cases (s : Saga) (plan : ReclaimPlan) (now : Instant)
    (error : Option String) :
    s.afterRemoval plan now error =
        { s with phase := .pausing (now + plan.settings.pause.pauseNanos) } ∨
      ∃ outcome, s.afterRemoval plan now error = { s with phase := .ended outcome } := by
  cases error with
  | none => exact Or.inr ⟨_, rfl⟩
  | some e =>
      rcases s.afterFailure_cases plan now e with h | h
      · exact Or.inl h
      · exact Or.inr ⟨_, h⟩

/-- A saga is about its key for good. -/
theorem Moves.key_eq (h : Moves plan now cancelled catalog s s' effect) : s'.key = s.key := by
  cases h with
  | giveUp =>
      rcases s.afterFailure_cases plan now _ with heq | heq <;> rw [heq]
  | _ => rfl

theorem key_afterRemoval (s : Saga) (plan : ReclaimPlan) (now : Instant)
    (error : Option String) : (s.afterRemoval plan now error).key = s.key := by
  rcases s.afterRemoval_cases plan now error with heq | ⟨outcome, heq⟩ <;> rw [heq]

/-! ### After a removal -/

/-- A saga that began the removal of its `attempt`-th attempt at the instant `since` and that has
not got beyond it: it removes still, or has ended, or pauses until a pause after that instant is
over, or looks at the catalog in a later attempt, with a wait that began when that pause was
over. -/
def IsPast (plan : ReclaimPlan) (attempt : Nat) (since now : Instant) (s : Saga) : Prop :=
  let resumed := since + plan.settings.pause.pauseNanos
  match s.phase with
  | .removing => attempt ≤ s.attempt
  | .pausing next => attempt ≤ s.attempt ∧ resumed ≤ next
  | .starting => attempt < s.attempt ∧ resumed ≤ now
  | .looking wait _ => attempt < s.attempt ∧ resumed ≤ wait.started
  | .ended _ => True
  | .fresh => False

namespace IsPast

variable {attempt : Nat} {since : Instant}

/-- A saga whose removal begins is past it. -/
theorem remove (plan : ReclaimPlan) (now : Instant) (s : Saga) :
    IsPast plan s.attempt now now { s with phase := .removing } := Nat.le_refl s.attempt

theorem later {now' : Instant} (h : IsPast plan attempt since now s) (hle : now ≤ now') :
    IsPast plan attempt since now' s := by
  unfold IsPast at h ⊢
  cases hphase : s.phase with
  | starting =>
      rw [hphase] at h
      exact ⟨h.1, Nat.le_trans h.2 hle⟩
  | _ =>
      rw [hphase] at h
      exact h

/-- A failure, too, is followed by a pause. -/
theorem afterFailure (plan : ReclaimPlan) (error : String) (hattempt : attempt ≤ s.attempt)
    (hsince : since ≤ now) : IsPast plan attempt since now (s.afterFailure plan now error) := by
  rcases s.afterFailure_cases plan now error with heq | heq
  · rw [heq]
    exact ⟨hattempt, Nat.add_le_add_right hsince _⟩
  · rw [heq]
    trivial

theorem afterRemoval (h : IsPast plan attempt since now s) (hphase : s.phase = .removing)
    (hsince : since ≤ now) (error : Option String) :
    IsPast plan attempt since now (s.afterRemoval plan now error) := by
  unfold IsPast at h
  rw [hphase] at h
  rcases s.afterRemoval_cases plan now error with heq | ⟨outcome, heq⟩
  · rw [heq]
    exact ⟨h, Nat.add_le_add_right hsince _⟩
  · rw [heq]
    trivial

theorem move (h : IsPast plan attempt since now s) (hsince : since ≤ now)
    (hmove : Moves plan now cancelled catalog s s' effect) :
    IsPast plan attempt since now s' := by
  unfold IsPast at h
  cases hmove with
  | begin hphase => simp only [hphase] at h
  | refuse => trivial
  | interrupt => trivial
  | ask hphase =>
      simp only [hphase] at h
      exact h
  | remove hphase =>
      simp only [hphase] at h
      exact Nat.le_of_lt h.1
  | again hphase =>
      simp only [hphase] at h
      exact h
  | giveUp hphase =>
      simp only [hphase] at h
      exact afterFailure plan _ (Nat.le_of_lt h.1) hsince
  | retry hphase hdue =>
      simp only [hphase] at h
      exact ⟨Nat.lt_succ_of_le h.1, Nat.le_trans h.2 hdue⟩

/-- **A saga looks at the catalog again only in a later attempt and after the pause.** -/
theorem of_looking {wait : CatalogWait} {next : Instant} (h : IsPast plan attempt since now s)
    (hphase : s.phase = .looking wait next) :
    attempt < s.attempt ∧ since + plan.settings.pause.pauseNanos ≤ wait.started := by
  unfold IsPast at h
  simp only [hphase] at h
  exact h

end IsPast

/-! ### The wait of an attempt -/

/-- A saga waits for its own condition, at the pace of the plan, since an instant that has come. -/
def WaitsRightly (plan : ReclaimPlan) (now : Instant) (s : Saga) : Prop :=
  ∀ wait next, s.phase = .looking wait next →
    wait.condition = s.key.condition ∧ wait.settings = plan.polling ∧ wait.started ≤ now

namespace WaitsRightly

theorem of_not_looking (h : ∀ wait next, s.phase ≠ .looking wait next) :
    WaitsRightly plan now s := fun wait next hphase => absurd hphase (h wait next)

theorem later {now' : Instant} (h : WaitsRightly plan now s) (hle : now ≤ now') :
    WaitsRightly plan now' s := by
  intro wait next hphase
  obtain ⟨hcondition, hsettings, hstarted⟩ := h wait next hphase
  exact ⟨hcondition, hsettings, Nat.le_trans hstarted hle⟩

theorem move (h : WaitsRightly plan now s)
    (hmove : Moves plan now cancelled catalog s s' effect) : WaitsRightly plan now s' := by
  cases hmove with
  | ask =>
      rintro wait next hphase
      cases hphase
      exact ⟨rfl, rfl, Nat.le_refl _⟩
  | again hphase =>
      rintro wait next hlooking
      cases hlooking
      exact h _ _ hphase
  | giveUp =>
      rcases s.afterFailure_cases plan now _ with heq | heq
      · rw [heq]
        exact of_not_looking (by simp)
      · rw [heq]
        exact of_not_looking (by simp)
  | _ => exact of_not_looking (by simp)

theorem afterRemoval (plan : ReclaimPlan) (now : Instant) (s : Saga) (error : Option String) :
    WaitsRightly plan now (s.afterRemoval plan now error) := by
  rcases s.afterRemoval_cases plan now error with heq | ⟨outcome, heq⟩
  · rw [heq]
    exact of_not_looking (by simp)
  · rw [heq]
    exact of_not_looking (by simp)

end WaitsRightly

end Saga

end ShardKeeper
