import ShardKeeper.Proofs.Reclaim.Attempts

/-!
# A saga that runs by itself

`ReclaimPlan.run` goes through a whole saga attempt by attempt, when removals take
no time.  This file shows that it does what the steps of the saga do.

## Main results

* `ReclaimCase.runFrom_of_goesOn`, `ReclaimCase.runFrom_of_isLast` — one attempt.
* `ReclaimCase.run_of_reaches` — the whole saga.
-/

namespace ShardKeeper

namespace ReclaimCase

open CatalogWait (LiveAt)

variable {c : ReclaimCase} {results : List (Option String)} {i : ℕ}

section Error

variable {a : Attempt} (hmet : (c.waited a).ending = .met)

include hmet

theorem error_of_removed (h : c.upshot a = .removed) : (c.results a.removalsBefore).2 = none := by
  rw [upshot, hmet] at h
  cases herror : (c.results a.removalsBefore).2 with
  | none => rfl
  | some e => simp [herror] at h

theorem error_of_failed {e : String} (h : c.upshot a = .failed e) :
    (c.results a.removalsBefore).2 = some e := by
  rw [upshot, hmet] at h
  cases herror : (c.results a.removalsBefore).2 with
  | none => simp [herror] at h
  | some e' => simpa [herror] using h

end Error

/-- The saga begins at the instant zero, and its removals take no time and have these results. -/
structure IsPlain (c : ReclaimCase) (results : List (Option String)) : Prop where
  start : c.start = 0
  results : c.results = fun n => (0, results[n]?.join)

/-- The rest of the saga from attempt `i` on. -/
def rest (c : ReclaimCase) (results : List (Option String)) (i : ℕ) : ReclaimPlan.Run :=
  c.plan.runFrom c.key c.around (results.drop (c.attempt i).removalsBefore) (i + 1)
    (c.attempt i).began

namespace IsPlain

variable (h : c.IsPlain results)

include h

theorem ended_eq (a : Attempt) : c.ended a = (c.waited a).instant := by
  rw [ended, h.results]
  cases c.removal? a <;> rfl

/-- The result that is next belongs to the removal that is next. -/
theorem head?_drop (n : ℕ) : (results.drop n).head?.join = (c.results n).2 := by
  rw [h.results, List.head?_drop]

/-- A failed attempt is followed by a pause, by the end of which the saga may be cancelled. -/
theorem rest_of_failed {e : String} (hupshot : c.upshot (c.attempt i) = .failed e) :
    c.rest results i =
      let removed := (c.removal? (c.attempt i)).toList
      if i + 1 < c.plan.settings.maxAttempts then
        match c.around.cancelAt.filter (· ≤ (c.attempt (i + 1)).began) with
        | some t => ⟨removed, some .interrupted, max t (c.ended (c.attempt i))⟩
        | none =>
          { c.rest results (i + 1) with
            removals := removed ++ (c.rest results (i + 1)).removals }
      else ⟨removed, some (.abandoned c.plan.settings.maxAttempts e), c.ended (c.attempt i)⟩ := by
  have hnext : (c.attempt (i + 1)).began =
      (c.waited (c.attempt i)).instant + c.plan.settings.pause.pauseNanos := by
    rw [attempt, h.ended_eq]
  rw [rest, ReclaimPlan.runFrom, ← waited, h.ended_eq, rest, hnext]
  unfold upshot at hupshot
  cases hending : (c.waited (c.attempt i)).ending with
  | met =>
      have hremoval := removal?_of_met hending
      have hcount : (c.attempt (i + 1)).removalsBefore = (c.attempt i).removalsBefore + 1 := by
        rw [attempt, hremoval]
        rfl
      rw [h.head?_drop, error_of_failed hending hupshot, hremoval, hcount, List.tail_drop]
      rfl
  | timedOut time =>
      obtain ⟨hremoval, -⟩ := ended_of_ne_met (c := c) (a := c.attempt i) (by simp [hending])
      have hcount : (c.attempt (i + 1)).removalsBefore = (c.attempt i).removalsBefore := by
        rw [attempt, hremoval]
        rfl
      rw [hending] at hupshot
      obtain rfl := Upshot.failed.inj hupshot
      rw [hremoval, hcount]
      rfl
  | interrupted | never =>
      rw [hending] at hupshot
      cases hupshot

theorem rest_of_removed (hupshot : c.upshot (c.attempt i) = .removed) :
    c.rest results i =
      ⟨(c.removal? (c.attempt i)).toList, some (.removed (i + 1)), c.ended (c.attempt i)⟩ := by
  rw [rest, ReclaimPlan.runFrom, ← waited, h.ended_eq]
  unfold upshot at hupshot
  cases hending : (c.waited (c.attempt i)).ending with
  | met =>
      rw [h.head?_drop, error_of_removed hending hupshot, removal?_of_met hending]
      rfl
  | timedOut | interrupted | never =>
      rw [hending] at hupshot
      cases hupshot

theorem rest_of_interrupted (hending : (c.waited (c.attempt i)).ending = .interrupted) :
    c.rest results i = ⟨[], some .interrupted, c.ended (c.attempt i)⟩ := by
  rw [rest, ReclaimPlan.runFrom, ← waited, h.ended_eq, hending]

theorem rest_of_goesOn (hgo : c.GoesOn i) :
    c.rest results i = { c.rest results (i + 1) with
      removals := (c.removal? (c.attempt i)).toList ++ (c.rest results (i + 1)).removals } := by
  obtain ⟨⟨e, he⟩, hallowed, hlive⟩ := hgo
  have hfilter : c.around.cancelAt.filter (· ≤ (c.attempt (i + 1)).began) = none := by
    rw [Option.filter_eq_none_iff]
    exact fun t ht hle => absurd (of_decide_eq_true hle) (Nat.not_le.mpr (hlive t ht))
  rw [h.rest_of_failed he]
  dsimp only
  rw [if_pos hallowed, hfilter]

/-- **The attempts of a saga follow one another**, up to the one after which it does not go on. -/
theorem rest_zero (hgoes : ∀ j < i, c.GoesOn j) :
    c.rest results 0 = { c.rest results i with
      removals := c.removals i ++ (c.rest results i).removals } := by
  induction i with
  | zero => rfl
  | succ i ih =>
      rw [ih fun j hj => hgoes j (Nat.lt_succ_of_lt hj),
        h.rest_of_goesOn (hgoes i (Nat.lt_succ_self i)), removals_succ, List.append_assoc]

theorem rest_of_isLast {last : ℕ} (hlast : c.IsLast last) {outcome : ReclaimOutcome}
    {instant : Instant}
    (hrest : c.rest results last = ⟨(c.removal? (c.attempt last)).toList, some outcome, instant⟩) :
    c.rest results 0 = ⟨c.removals (last + 1), some outcome, instant⟩ := by
  rw [h.rest_zero hlast.goes, hrest, removals_succ]

end IsPlain

/-- **A saga that runs by itself** ends as it does step by step, at the same instant and after the
same removals. -/
theorem run_of_reaches (h : c.IsPlain results) (hsome : 1 ≤ c.plan.settings.maxAttempts)
    (hpause : 0 < c.plan.settings.pause.nanos) (hpace : 0 < c.plan.polling.interval.nanos)
    {r : SagaRun} {outcome : ReclaimOutcome} (hreach : c.Reaches c.begun r)
    (hphase : r.saga.phase = .ended outcome) :
    c.plan.run c.key c.around results = ⟨r.removals, some outcome, r.now⟩ := by
  obtain ⟨made, instant, outcome', number, hend, hreach'⟩ := exists_end hsome hpause hpace
  obtain rfl := eq_of_ended rfl hphase hreach' hreach
  obtain rfl := SagaPhase.ended.inj hphase
  have hrun : c.plan.run c.key c.around results = c.rest results 0 := by
    rw [ReclaimPlan.run, if_pos (areUsable_of_pos hsome hpause), rest]
    show _ = c.plan.runFrom c.key c.around results 1 c.start
    rw [h.start]
  rw [hrun]
  cases hend with
  | unstarted hcancelled =>
      have hwait := CatalogWait.run_of_cancelled_before
        (w := ⟨c.key.condition, c.plan.polling, c.start⟩) hcancelled
      have hrest := h.rest_of_interrupted (i := 0) (congrArg CatalogWait.Run.ending hwait)
      rw [hrest, h.ended_eq]
      show _ = ReclaimPlan.Run.mk _ _ c.start
      rw [show (c.waited (c.attempt 0)).instant = c.start from
        congrArg CatalogWait.Run.instant hwait]
      rfl
  | removed hlast hupshot => exact h.rest_of_isLast hlast (h.rest_of_removed hupshot)
  | interrupted hlast hupshot =>
      have hending := ending_of_interrupted hpace hupshot
      refine h.rest_of_isLast hlast ?_
      rw [h.rest_of_interrupted hending, (ended_of_ne_met (by simp [hending])).1]
      rfl
  | abandoned hlast hupshot hmax =>
      refine h.rest_of_isLast hlast ((h.rest_of_failed hupshot).trans ?_)
      dsimp only
      rw [hmax, if_neg (Nat.lt_irrefl _)]
  | @stopped last _ t hlast hupshot hallowed ht hle =>
      refine h.rest_of_isLast hlast ((h.rest_of_failed hupshot).trans ?_)
      have hfilter : c.around.cancelAt.filter (· ≤ (c.attempt (last + 1)).began) = some t :=
        Option.filter_eq_some_iff.mpr ⟨ht, decide_eq_true hle⟩
      dsimp only
      rw [if_pos hallowed, hfilter]

end ReclaimCase

end ShardKeeper
