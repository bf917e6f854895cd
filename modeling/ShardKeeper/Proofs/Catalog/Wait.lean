import Mathlib.Data.Nat.Find
import Mathlib.Order.MinMax
import ShardKeeper.Catalog.Timeline

/-!
# When a wait looks, and how it ends

A wait goes from one look at the catalog to the next.  This file says by number
when each look takes place, and reads off from that how every wait ends.

## Main definitions

* `PollSettings.pace`, `PollSettings.rounds` — the time from one look to the next, and the number of
  pauses in the longest wait.
* `CatalogWait.pollAt` — the instant of a look, by its number.
* `CatalogWait.Undecided` — looks that decide nothing.

## Main results

* `CatalogWait.runFrom_pollAt` — one pause.
* `CatalogWait.run_eq` — what is left of a wait after looks that decide nothing.
* `CatalogWait.run_of_met`, `run_of_cancelled`, `run_of_late` — the ends of a wait that was not
  cancelled before it began.
* `CatalogWait.length_polls_le`, `CatalogWait.Looks.length_le` — no wait looks more than
  `rounds + 1` times, however late its looks are.
* `CatalogWait.runFrom_le_deadline` — no wait lasts longer than its time limit.
* `CatalogWait.run_by_look_numbers` — all of it, for every wait that pauses between its looks and
  has a deadline that the clock can tell.

No pause is longer than `Duration.longestPause`, so a wait with a longer interval
looks more often than that (`CatalogWait.looks_again_after_thirty_years`).
-/

namespace ShardKeeper

namespace PollSettings

/-- The time from one look to the next. -/
def pace (p : PollSettings) : Nat := p.interval.pauseNanos

/-- The number of pauses in a wait that lasts until the time is up: the time allowed over the pace,
rounded up. -/
def rounds (p : PollSettings) : Nat := (p.timeout.nanos + p.pace - 1) / p.pace

theorem pace_pos {p : PollSettings} (h : 0 < p.interval.nanos) : 0 < p.pace :=
  Nat.lt_min.mpr ⟨h, by decide⟩

/-- The time is up after that number of pauses, and not before. -/
theorem timeout_le_iff {p : PollSettings} (h : 0 < p.interval.nanos) (k : Nat) :
    p.timeout.nanos ≤ k * p.pace ↔ p.rounds ≤ k := by
  have hpace := pace_pos h
  rw [rounds, ← Nat.lt_succ_iff (n := k), Nat.div_lt_iff_lt_mul hpace, Nat.succ_mul]
  omega

/-- A pause takes up one of the rounded parts of the time left, or all of it. -/
theorem rounds_lt {pace left before : Nat} (hpace : 0 < pace) (hleft : 0 < left)
    (hless : left ≤ before) :
    (left - min pace left + pace - 1) / pace < (before + pace - 1) / pace := by
  by_cases hlong : pace ≤ left
  · rw [Nat.min_eq_left hlong, Nat.lt_iff_add_one_le, ← Nat.add_div_right _ hpace]
    exact Nat.div_le_div_right (by omega)
  · rw [Nat.min_eq_right (Nat.le_of_not_le hlong), Nat.sub_self, Nat.zero_add,
      Nat.div_eq_of_lt (Nat.sub_one_lt_of_lt hpace)]
    exact Nat.div_pos (by omega) hpace

end PollSettings

namespace CatalogWait

variable {w : CatalogWait} {s : Surroundings}

/-- The instant of the look number `k`: at the pace of the wait, but no later than the deadline. -/
def pollAt (w : CatalogWait) (k : Nat) : Instant :=
  w.started + min (k * w.settings.pace) w.settings.timeout.nanos

@[simp] theorem pollAt_zero (w : CatalogWait) : w.pollAt 0 = w.started := by
  simp [pollAt]

theorem pollAt_le_deadline (w : CatalogWait) (k : Nat) : w.pollAt k ≤ w.deadline :=
  Nat.add_le_add_left (Nat.min_le_right ..) _

theorem pollAt_mono (w : CatalogWait) {j k : Nat} (h : j ≤ k) : w.pollAt j ≤ w.pollAt k :=
  Nat.add_le_add_left (min_le_min_right _ (Nat.mul_le_mul_right _ h)) _

theorem pollAt_eq_deadline_iff (hpace : 0 < w.settings.interval.nanos) (k : Nat) :
    w.pollAt k = w.deadline ↔ w.settings.rounds ≤ k := by
  rw [← PollSettings.timeout_le_iff hpace, pollAt, deadline, Nat.add_left_cancel_iff,
    min_eq_right_iff]

theorem pollAt_lt_deadline_iff (hpace : 0 < w.settings.interval.nanos) (k : Nat) :
    w.pollAt k < w.deadline ↔ k < w.settings.rounds := by
  rw [lt_iff_le_and_ne, ne_eq, pollAt_eq_deadline_iff hpace, Nat.not_le]
  exact and_iff_right (w.pollAt_le_deadline k)

/-- Before the deadline the pace alone says when a look takes place. -/
theorem mul_pace_lt {k : Nat} (h : w.pollAt k < w.deadline) :
    k * w.settings.pace < w.settings.timeout.nanos := by
  by_contra hlate
  rw [pollAt, Nat.min_eq_right (Nat.not_lt.mp hlate)] at h
  exact Nat.lt_irrefl _ h

/-- Until the deadline each look is later than the one before. -/
theorem pollAt_lt_succ (hpace : 0 < w.settings.interval.nanos) {k : Nat}
    (h : w.pollAt k < w.deadline) : w.pollAt k < w.pollAt (k + 1) := by
  have hpos := PollSettings.pace_pos hpace
  have hdone := mul_pace_lt h
  refine Nat.add_lt_add_left ?_ _
  rw [Nat.succ_mul]
  omega

/-- A look that decides nothing is followed by the one with the next number. -/
theorem nextPoll_pollAt {k : Nat} (h : w.pollAt k < w.deadline) :
    w.nextPoll (w.pollAt k) = w.pollAt (k + 1) := by
  have hdone := mul_pace_lt h
  have hleft : w.deadline - w.pollAt k = w.settings.timeout.nanos - k * w.settings.pace := by
    rw [deadline, pollAt, Nat.min_eq_left (Nat.le_of_lt hdone), Nat.add_sub_add_left]
  rw [nextPoll, ← PollSettings.pace, hleft, pollAt, pollAt, Nat.succ_mul, Nat.add_assoc]
  congr 1
  omega

/-! ### One look -/

/-- No cancellation has come by an instant. -/
def LiveAt (s : Surroundings) (now : Instant) : Prop := ∀ c ∈ s.cancelAt, now < c

theorem LiveAt.cancelledBy_eq {now : Instant} (h : LiveAt s now) : s.cancelledBy now = false := by
  rw [Surroundings.cancelledBy]
  cases hc : s.cancelAt with
  | none => rfl
  | some c => simpa using h c hc

theorem liveAt_iff {now : Instant} : LiveAt s now ↔ s.cancelledBy now = false := by
  refine ⟨LiveAt.cancelledBy_eq, fun h c hc => ?_⟩
  rw [Surroundings.cancelledBy, Option.mem_def.mp hc] at h
  simpa using h

theorem LiveAt.mono {now earlier : Instant} (h : LiveAt s now) (hle : earlier ≤ now) :
    LiveAt s earlier :=
  fun c hc => Nat.lt_of_le_of_lt hle (h c hc)

theorem LiveAt.cancelWithin_eq {now next : Instant} (h : LiveAt s next) :
    s.cancelWithin now next = none := by
  rw [Surroundings.cancelWithin, Option.filter_eq_none_iff]
  intro c hc
  simpa using fun _ => h c hc

/-- A wait that is already cancelled ends without a look. -/
theorem runFrom_of_cancelled {now : Instant} (hcancelled : s.cancelledBy now = true) :
    w.runFrom s now = ⟨[], [], .interrupted, now⟩ := by
  rw [runFrom, poll, hcancelled]
  rfl

theorem runFrom_of_met {now : Instant} (hlive : LiveAt s now)
    (hmet : w.condition.holds (s.catalogAt now) = true) :
    w.runFrom s now = ⟨[], [now], .met, now⟩ := by
  rw [runFrom, poll, hlive.cancelledBy_eq, hmet]
  rfl

theorem runFrom_of_late (hlive : LiveAt s w.deadline)
    (hnot : w.condition.holds (s.catalogAt w.deadline) = false) :
    w.runFrom s w.deadline =
      ⟨[], [w.deadline], .timedOut w.settings.timeout.nanos, w.deadline⟩ := by
  have hwaited : w.deadline - w.started = w.settings.timeout.nanos := Nat.add_sub_cancel_left ..
  have hpoll : w.poll w.deadline false (s.catalogAt w.deadline) =
      .timedOut w.settings.timeout.nanos := by
    rw [poll, hnot, ← hwaited]
    simp
  rw [runFrom, hlive.cancelledBy_eq, hpoll]

section Pause

variable {k : Nat} (hearly : w.pollAt k < w.deadline)
variable (hnot : w.condition.holds (s.catalogAt (w.pollAt k)) = false)

include hearly hnot

theorem poll_pollAt :
    w.poll (w.pollAt k) false (s.catalogAt (w.pollAt k)) = .again (w.pollAt (k + 1)) := by
  rw [poll, hnot, nextPoll_pollAt hearly]
  simp [Nat.not_le.mpr hearly]

/-- A cancellation ends the pause between two looks. -/
theorem runFrom_of_cancelWithin {c : Instant} (hc : c ∈ s.cancelAt) (hlt : w.pollAt k < c)
    (hle : c ≤ w.pollAt (k + 1)) :
    w.runFrom s (w.pollAt k) = ⟨[], [w.pollAt k], .interrupted, c⟩ := by
  have hlive : LiveAt s (w.pollAt k) := fun c' hc' => by
    rwa [Option.mem_unique hc' hc]
  have hwithin : s.cancelWithin (w.pollAt k) (w.pollAt (k + 1)) = some c := by
    rw [Surroundings.cancelWithin, Option.filter_eq_some_iff]
    exact ⟨hc, by simpa using ⟨hlt, hle⟩⟩
  rw [runFrom, hlive.cancelledBy_eq, poll_pollAt hearly hnot]
  simp only [hwithin]

/-- **One pause**: a look that decides nothing, and then the wait goes on from the next one. -/
theorem runFrom_pollAt (hpace : 0 < w.settings.interval.nanos)
    (hlive : LiveAt s (w.pollAt (k + 1))) :
    w.runFrom s (w.pollAt k) =
      { w.runFrom s (w.pollAt (k + 1)) with
        polls := w.pollAt k :: (w.runFrom s (w.pollAt (k + 1))).polls } := by
  have hstep := pollAt_lt_succ hpace hearly
  have hnow : LiveAt s (w.pollAt k) := hlive.mono (Nat.le_of_lt hstep)
  rw [runFrom, hnow.cancelledBy_eq, poll_pollAt hearly hnot]
  simp only [hlive.cancelWithin_eq]
  rw [if_pos ⟨hstep, w.pollAt_le_deadline (k + 1)⟩]

end Pause

/-! ### A whole wait -/

/-- The condition does not hold at the look number `k`. -/
def FailsAt (w : CatalogWait) (s : Surroundings) (k : Nat) : Prop :=
  w.condition.holds (s.catalogAt (w.pollAt k)) = false

/-- The look number `k` decides nothing, and no cancellation comes before the next one. -/
structure Undecided (w : CatalogWait) (s : Surroundings) (k : Nat) : Prop where
  fails : w.FailsAt s k
  early : w.pollAt k < w.deadline
  live : LiveAt s (w.pollAt (k + 1))

/-- A wait that is cancelled before it begins only asks for a newer catalog. -/
theorem run_of_cancelled_before (hcancelled : s.cancelledBy w.started = true) :
    w.run s = ⟨[w.started], [], .interrupted, w.started⟩ := by
  rw [run, runFrom_of_cancelled hcancelled]

section Wait

variable (hpace : 0 < w.settings.interval.nanos)

include hpace

/-- **Looks that decide nothing**, and what is left of the wait after them. -/
theorem run_eq {n : Nat} (h : ∀ k < n, w.Undecided s k) :
    w.run s =
      { w.runFrom s (w.pollAt n) with
        requests := w.started :: (w.runFrom s (w.pollAt n)).requests
        polls := (List.range n).map w.pollAt ++ (w.runFrom s (w.pollAt n)).polls } := by
  induction n with
  | zero => rw [run, pollAt_zero]; rfl
  | succ n ih =>
      obtain ⟨hfails, hearly, hlive⟩ := h n (Nat.lt_succ_self n)
      rw [ih fun k hk => h k (Nat.lt_succ_of_lt hk), runFrom_pollAt hearly hfails hpace hlive,
        List.range_succ, List.map_append, List.map_singleton, List.append_assoc]
      rfl

/-- A wait ends at the first look at which its condition holds. -/
theorem run_of_met {k : Nat} (hbefore : ∀ j < k, w.FailsAt s j)
    (hmet : w.condition.holds (s.catalogAt (w.pollAt k)) = true) (hlive : LiveAt s (w.pollAt k)) :
    w.run s = ⟨[w.started], (List.range (k + 1)).map w.pollAt, .met, w.pollAt k⟩ := by
  have hundecided : ∀ j < k, w.Undecided s j := by
    intro j hj
    refine ⟨hbefore j hj, ?_, hlive.mono (w.pollAt_mono hj)⟩
    -- all looks at the deadline are one and the same
    by_contra hlate
    have hj' : w.pollAt j = w.deadline :=
      Nat.le_antisymm (w.pollAt_le_deadline j) (Nat.not_lt.mp hlate)
    have hk' : w.pollAt k = w.deadline := Nat.le_antisymm (w.pollAt_le_deadline k)
      (hj' ▸ w.pollAt_mono (Nat.le_of_lt hj))
    have hfails := hbefore j hj
    rw [FailsAt, hj', ← hk', hmet] at hfails
    cases hfails
  rw [run_eq hpace hundecided, runFrom_of_met hlive hmet, List.range_succ, List.map_append]
  rfl

/-- A wait that is cancelled in the pause after the look number `n` ends then. -/
theorem run_of_cancelled {n : Nat} {c : Instant} (hc : c ∈ s.cancelAt) (hlt : w.pollAt n < c)
    (hle : c ≤ w.pollAt (n + 1)) (hfails : ∀ k ≤ n, w.FailsAt s k) :
    w.run s = ⟨[w.started], (List.range (n + 1)).map w.pollAt, .interrupted, c⟩ := by
  have hlive : LiveAt s (w.pollAt n) := fun c' hc' => by
    rwa [Option.mem_unique hc' hc]
  have hearly : w.pollAt n < w.deadline :=
    Nat.lt_of_lt_of_le hlt (Nat.le_trans hle (w.pollAt_le_deadline (n + 1)))
  have hundecided : ∀ k < n, w.Undecided s k := fun k hk =>
    ⟨hfails k (Nat.le_of_lt hk), Nat.lt_of_le_of_lt (w.pollAt_mono (Nat.le_of_lt hk)) hearly,
      hlive.mono (w.pollAt_mono hk)⟩
  rw [run_eq hpace hundecided, runFrom_of_cancelWithin hearly (hfails n (Nat.le_refl n)) hc hlt hle,
    List.range_succ, List.map_append]
  rfl

/-- A wait whose condition holds at no look lasts until its time is up. -/
theorem run_of_late (hlive : LiveAt s w.deadline)
    (hfails : ∀ k ≤ w.settings.rounds, w.FailsAt s k) :
    w.run s = ⟨[w.started], (List.range (w.settings.rounds + 1)).map w.pollAt,
      .timedOut w.settings.timeout.nanos, w.deadline⟩ := by
  have hlast : w.pollAt w.settings.rounds = w.deadline :=
    (pollAt_eq_deadline_iff hpace _).mpr (Nat.le_refl _)
  have hundecided : ∀ k < w.settings.rounds, w.Undecided s k := fun k hk =>
    ⟨hfails k (Nat.le_of_lt hk), (pollAt_lt_deadline_iff hpace k).mpr hk,
      hlive.mono (w.pollAt_le_deadline _)⟩
  have hnot : w.condition.holds (s.catalogAt w.deadline) = false := by
    rw [← hlast]
    exact hfails _ (Nat.le_refl _)
  rw [run_eq hpace hundecided, hlast, runFrom_of_late hlive hnot, List.range_succ, List.map_append,
    List.map_singleton, hlast]

theorem not_undecided_rounds : ¬ w.Undecided s w.settings.rounds := fun h =>
  Nat.ne_of_lt h.early ((pollAt_eq_deadline_iff hpace _).mpr (Nat.le_refl _))

/-- **Every wait ends**: at once, or with one of its first `rounds + 1` looks. -/
theorem run_cases :
    (w.run s = ⟨[w.started], [], .interrupted, w.started⟩) ∨
    ∃ n ≤ w.settings.rounds, ∃ ending instant, ending ≠ .never ∧
      w.run s = ⟨[w.started], (List.range (n + 1)).map w.pollAt, ending, instant⟩ := by
  classical
  cases hstart : s.cancelledBy w.started with
  | true => exact Or.inl (run_of_cancelled_before hstart)
  | false =>
      -- the first look that decides something
      have hexists : ∃ k, ¬ w.Undecided s k := ⟨_, not_undecided_rounds hpace⟩
      obtain ⟨n, hdecided, hbefore⟩ := Nat.findX hexists
      have hundecided : ∀ k < n, w.Undecided s k := fun k hk => Classical.not_not.mp (hbefore k hk)
      have hn : n ≤ w.settings.rounds := by
        by_contra hlt
        exact not_undecided_rounds hpace (hundecided _ (Nat.not_le.mp hlt))
      have hlive : LiveAt s (w.pollAt n) := by
        cases n with
        | zero => rwa [pollAt_zero, liveAt_iff]
        | succ m => exact (hundecided m (Nat.lt_succ_self m)).live
      have hfails : ∀ k < n, w.FailsAt s k := fun k hk => (hundecided k hk).fails
      refine Or.inr ⟨n, hn, ?_⟩
      cases hmet : w.condition.holds (s.catalogAt (w.pollAt n)) with
      | true => exact ⟨_, _, by decide, run_of_met hpace hfails hmet hlive⟩
      | false =>
          have hfails' : ∀ k ≤ n, w.FailsAt s k := fun k hk =>
            (Nat.lt_or_eq_of_le hk).elim (hfails k) fun heq => heq ▸ hmet
          by_cases hearly : w.pollAt n < w.deadline
          · have hcancelled : ¬ LiveAt s (w.pollAt (n + 1)) := fun hnext =>
              hdecided ⟨hmet, hearly, hnext⟩
            obtain ⟨c, hc, hle⟩ : ∃ c ∈ s.cancelAt, c ≤ w.pollAt (n + 1) := by
              simpa [LiveAt] using hcancelled
            exact ⟨_, _, by decide, run_of_cancelled hpace hc (hlive c hc) hle hfails'⟩
          · obtain rfl : n = w.settings.rounds := Nat.le_antisymm hn <| by
              rw [← pollAt_eq_deadline_iff hpace]
              exact Nat.le_antisymm (w.pollAt_le_deadline n) (Nat.not_lt.mp hearly)
            rw [(pollAt_eq_deadline_iff hpace _).mpr (Nat.le_refl _)] at hlive
            exact ⟨_, _, by simp, run_of_late hpace hlive hfails'⟩

/-- No wait looks more often than it has pauses, and once more. -/
theorem length_polls_le : (w.run s).polls.length ≤ w.settings.rounds + 1 := by
  rcases run_cases (s := s) hpace with hrun | ⟨n, hn, ending, instant, -, hrun⟩
  · rw [hrun]
    exact Nat.zero_le _
  · rw [hrun, List.length_map, List.length_range]
    exact Nat.succ_le_succ hn

end Wait

/-! ### What the end of a wait tells -/

theorem live_of_again {now next : Instant}
    (h : w.poll now (s.cancelledBy now) (s.catalogAt now) = .again next) : LiveAt s now := by
  rw [liveAt_iff]
  cases hcancelled : s.cancelledBy now with
  | false => rfl
  | true => simp [poll, hcancelled] at h

/-- A wait whose time is up has lasted exactly that long. -/
theorem runFrom_of_timedOut {now : Instant} (hnow : now ≤ w.deadline) {waited : Nat}
    (h : (w.runFrom s now).ending = .timedOut waited) :
    (w.runFrom s now).instant = w.deadline ∧ waited = w.settings.timeout.nanos := by
  fun_induction runFrom w s now with
  | case1 | case2 | case4 | case6 => cases h
  | case3 now waited' hpoll =>
      cases h
      unfold poll at hpoll
      split at hpoll
      · cases hpoll
      · split at hpoll
        · cases hpoll
        · split at hpoll
          · rename_i hlate
            obtain rfl := Decision.timedOut.inj hpoll
            obtain rfl : now = w.deadline := Nat.le_antisymm hnow hlate
            exact ⟨rfl, Nat.add_sub_cancel_left ..⟩
          · cases hpoll
  | case5 now next _ _ hnext _ ih => exact ih hnext.2 h

/-- A look that decides nothing is followed by another before the time is up. -/
theorem le_deadline_of_again {now next : Instant} (hnow : now ≤ w.deadline)
    (h : w.poll now (s.cancelledBy now) (s.catalogAt now) = .again next) : next ≤ w.deadline := by
  obtain rfl : w.nextPoll now = next := by
    unfold poll at h
    split at h
    · cases h
    · split at h
      · cases h
      · split at h
        · cases h
        · exact Decision.again.inj h
  exact Nat.add_le_of_le_sub' hnow (Nat.min_le_right ..)

/-- **No wait lasts longer than its time limit**, and none looks after that. -/
theorem runFrom_le_deadline {now : Instant} (hnow : now ≤ w.deadline) :
    (w.runFrom s now).instant ≤ w.deadline ∧
      ∀ look ∈ (w.runFrom s now).polls, look ≤ w.deadline := by
  fun_induction runFrom w s now with
  | case1 | case3 | case6 => exact ⟨hnow, fun look hlook => List.mem_singleton.mp hlook ▸ hnow⟩
  | case2 => exact ⟨hnow, fun look hlook => absurd hlook List.not_mem_nil⟩
  | case4 now next hpoll c hcancel =>
      obtain ⟨-, hwithin⟩ := Option.filter_eq_some_iff.mp hcancel
      have hc : c ≤ next := (by simpa using hwithin : now < c ∧ c ≤ next).2
      exact ⟨Nat.le_trans hc (le_deadline_of_again hnow hpoll),
        fun look hlook => List.mem_singleton.mp hlook ▸ hnow⟩
  | case5 now next _ _ hnext _ ih =>
      refine ⟨(ih hnext.2).1, fun look hlook => ?_⟩
      rcases List.mem_cons.mp hlook with rfl | hlater
      · exact hnow
      · exact (ih hnext.2).2 look hlater

/-- A wait is interrupted only if it was cancelled. -/
theorem cancelledBy_of_interrupted {now : Instant}
    (h : (w.runFrom s now).ending = .interrupted) :
    s.cancelledBy (w.runFrom s now).instant = true := by
  fun_induction runFrom w s now with
  | case1 | case3 | case6 => cases h
  | case2 now hpoll =>
      unfold poll at hpoll
      split at hpoll
      · assumption
      · split at hpoll
        · cases hpoll
        · split at hpoll <;> cases hpoll
  | case4 now next _ c hcancel =>
      obtain ⟨hc, -⟩ := Option.filter_eq_some_iff.mp hcancel
      simp [Surroundings.cancelledBy, hc]
  | case5 now next _ _ hnext _ ih => exact ih h

/-! ### Looks that come late -/

/-- How many looks a wait has left at most, when the next one is not to be before an instant. -/
def looksLeft (w : CatalogWait) (next : Instant) : Nat :=
  (w.deadline - next + w.settings.pace - 1) / w.settings.pace + 1

theorem looksLeft_started (w : CatalogWait) : w.looksLeft w.started = w.settings.rounds + 1 := by
  rw [looksLeft, deadline, Nat.add_sub_cancel_left]
  rfl

/-- However late a look is, there is one less left after it. -/
theorem looksLeft_nextPoll (hpace : 0 < w.settings.interval.nanos) {next now : Instant}
    (hdue : next ≤ now) (hearly : now < w.deadline) :
    w.looksLeft (w.nextPoll now) < w.looksLeft next := by
  have hpos := PollSettings.pace_pos hpace
  have hleft : w.deadline - w.nextPoll now =
      (w.deadline - now) - min w.settings.pace (w.deadline - now) := by
    rw [nextPoll, Nat.sub_add_eq]
    rfl
  rw [looksLeft, looksLeft, hleft, Nat.add_lt_add_iff_right]
  exact PollSettings.rounds_lt hpos (Nat.sub_pos_of_lt hearly) (Nat.sub_le_sub_left hdue _)

/-- Looks that a wait makes one after the other from an instant on, each of them as late as it may
be.  All but the last decide nothing. -/
inductive Looks (w : CatalogWait) : Instant → List Instant → Prop where
  | last {next now : Instant} (hdue : next ≤ now) : Looks w next [now]
  | again {next now : Instant} {rest : List Instant} (hdue : next ≤ now) (hearly : now < w.deadline)
      (hrest : Looks w (w.nextPoll now) rest) : Looks w next (now :: rest)

theorem Looks.length_le (hpace : 0 < w.settings.interval.nanos) {next : Instant}
    {looks : List Instant} (h : w.Looks next looks) : looks.length ≤ w.looksLeft next := by
  induction h with
  | last => exact Nat.succ_le_succ (Nat.zero_le _)
  | again hdue hearly _ ih =>
      exact Nat.le_trans (Nat.succ_le_succ ih) (looksLeft_nextPoll hpace hdue hearly)

/-- A cancellation before the deadline comes in the pause after some look. -/
theorem exists_pause (hpace : 0 < w.settings.interval.nanos) {c : Instant} (hlate : w.started < c)
    (hearly : c < w.deadline) : ∃ n, w.pollAt n < c ∧ c ≤ w.pollAt (n + 1) := by
  have hreached : ∃ k, c ≤ w.pollAt k := by
    refine ⟨w.settings.rounds, ?_⟩
    rw [(pollAt_eq_deadline_iff hpace _).mpr (Nat.le_refl _)]
    exact Nat.le_of_lt hearly
  obtain ⟨m, hm, hbefore⟩ := Nat.findX hreached
  cases m with
  | zero =>
      rw [pollAt_zero] at hm
      exact absurd hlate (Nat.not_lt.mpr hm)
  | succ n => exact ⟨n, Nat.not_le.mp (hbefore n (Nat.lt_succ_self n)), hm⟩

/-- **How a wait goes that pauses between its looks.**  It asks for a newer catalog once, when it
begins, and it always ends:

* at once and without a look, when it is already cancelled;
* at the first look at which its condition holds, when that comes before any cancellation;
* with a cancellation that comes before the time is up and before any such look;
* when its time is up, and after exactly that time, otherwise.

The looks are those with the numbers from zero on: all that come no later than the end, one of them
at the deadline if the wait lasts so long.  The deadline is an instant that the clock can tell, and
so are all that count here. -/
theorem run_by_look_numbers (w : CatalogWait) (s : Surroundings)
    (hpace : 0 < w.settings.interval.nanos) (hdeadline : w.deadline ≤ Instant.latest) :
    let r := w.run s
    r.requests = [w.started] ∧ r.ending ≠ .never ∧
    (r.instant ≤ Instant.latest ∧ ∀ look ∈ r.polls, look ≤ Instant.latest) ∧
    (s.cancelledBy w.started = true →
      r.ending = .interrupted ∧ r.instant = w.started ∧ r.polls = []) ∧
    (∀ k, (∀ j < k, w.condition.holds (s.catalogAt (w.pollAt j)) = false) →
      w.condition.holds (s.catalogAt (w.pollAt k)) = true → (∀ c ∈ s.cancelAt, w.pollAt k < c) →
      r.ending = .met ∧ r.instant = w.pollAt k ∧ r.polls = (List.range (k + 1)).map w.pollAt) ∧
    (∀ c ∈ s.cancelAt, w.started < c → c < w.deadline →
      (∀ k, w.pollAt k < c → w.condition.holds (s.catalogAt (w.pollAt k)) = false) →
      r.ending = .interrupted ∧ r.instant = c ∧
        ∃ n, r.polls = (List.range n).map w.pollAt ∧ ∀ k, k < n ↔ w.pollAt k < c) ∧
    ((∀ c ∈ s.cancelAt, w.deadline < c) →
      (∀ k, w.condition.holds (s.catalogAt (w.pollAt k)) = false) →
      r.ending = .timedOut w.settings.timeout.nanos ∧ r.instant = w.deadline ∧
        ∃ n, r.polls = (List.range (n + 1)).map w.pollAt ∧
          ∀ k, n ≤ k ↔ w.pollAt k = w.deadline) := by
  intro r
  have hcases := run_cases (w := w) (s := s) hpace
  refine ⟨?requests, ?ends, ?told, ?already, ?met, ?cancelled, ?late⟩
  case requests =>
    rcases hcases with hrun | ⟨n, -, ending, instant, -, hrun⟩ <;> rw [show r = _ from hrun]
  case ends =>
    rcases hcases with hrun | ⟨n, -, ending, instant, hends, hrun⟩
    · rw [show r = _ from hrun]
      exact Ending.noConfusion
    · rw [show r = _ from hrun]
      exact hends
  case told =>
    obtain ⟨hend, hlooks⟩ := runFrom_le_deadline (s := s) (Nat.le_add_right ..)
    exact ⟨Nat.le_trans hend hdeadline,
      fun look hlook => Nat.le_trans (hlooks look hlook) hdeadline⟩
  case already =>
    intro hcancelled
    rw [show r = _ from run_of_cancelled_before hcancelled]
    exact ⟨rfl, rfl, rfl⟩
  case met =>
    intro k hbefore hmet hlive
    rw [show r = _ from run_of_met hpace hbefore hmet hlive]
    exact ⟨rfl, rfl, rfl⟩
  case cancelled =>
    intro c hc hlate hearly hfails
    obtain ⟨n, hlt, hle⟩ := exists_pause hpace hlate hearly
    have hnumber : ∀ k, k < n + 1 ↔ w.pollAt k < c := by
      intro k
      refine ⟨fun hk => Nat.lt_of_le_of_lt (w.pollAt_mono (Nat.le_of_lt_succ hk)) hlt, fun hk => ?_⟩
      by_contra hnot
      exact Nat.lt_irrefl _
        (Nat.lt_of_lt_of_le hk (Nat.le_trans hle (w.pollAt_mono (Nat.not_lt.mp hnot))))
    have hrun := run_of_cancelled hpace hc hlt hle fun k hk =>
      hfails k ((hnumber k).mp (Nat.lt_succ_of_le hk))
    rw [show r = _ from hrun]
    exact ⟨rfl, rfl, n + 1, rfl, hnumber⟩
  case late =>
    intro hlive hfails
    rw [show r = _ from run_of_late hpace hlive fun k _ => hfails k]
    exact ⟨rfl, rfl, w.settings.rounds, rfl, fun k => (pollAt_eq_deadline_iff hpace k).symm⟩

/-- A wait until a table is no longer served beside another one.  That comes between the second look
and the third, which is the one at the deadline, and a cancellation comes after that. -/
theorem run_by_look_numbers_at_deadline :
    let w : CatalogWait := ⟨.absence "t" none, ⟨.ofMillis 1000, .ofMillis 1500⟩, 0⟩
    let s := Timeline.surroundings
      [(0, .publish ⟨[("t", [(0, ⟨["p"]⟩)]), ("u", [(0, ⟨["q"]⟩)])]⟩),
        (1200000000, .publish ⟨[("u", [(0, ⟨["q"]⟩)])]⟩), (1700000000, .cancel)]
    0 < w.settings.interval.nanos ∧ w.deadline ≤ Instant.latest ∧
      (w.run s).ending = .met ∧ (w.run s).instant = 1500000000 ∧
      (w.run s).polls = [0, 1000000000, 1500000000] := by
  intro w s
  obtain ⟨-, -, -, -, hmet, -, -⟩ := run_by_look_numbers w s (by decide) (by decide)
  obtain ⟨hending, hinstant, hpolls⟩ := hmet 2 (by decide) (by decide) (by decide)
  exact ⟨by decide, by decide, hending, hinstant.trans (by decide), hpolls.trans (by decide)⟩

/-- A wait with an interval of nearly thirty-two years looks again after each thirty years of 365
days.  What is served soon before the interval is over is found long after that. -/
theorem looks_again_after_thirty_years :
    let w : CatalogWait :=
      ⟨.presence "t" "p", ⟨.ofMillis 1000000000000, .ofMillis 2000000000000⟩, 0⟩
    let s := Timeline.surroundings
      [((Duration.ofMillis 5).nanos, .publish ⟨[]⟩),
        ((Duration.ofMillis 950000000000).nanos, .publish ⟨[("t", [(0, ⟨["p"]⟩)])]⟩)]
    w.condition.holds (s.catalogAt w.settings.interval.nanos) = true ∧
      (w.run s).ending = .met ∧ (w.run s).instant = (Duration.ofMillis 1892160000000).nanos ∧
      ∀ k : Nat, (w.run s).instant ≠
        w.started + min (k * w.settings.interval.nanos) w.settings.timeout.nanos := by
  intro w s
  have hbefore : ∀ j < 2, w.condition.holds (s.catalogAt (w.pollAt j)) = false := by decide
  have hmet : w.condition.holds (s.catalogAt (w.pollAt 2)) = true := by decide
  have hlive : ∀ c ∈ s.cancelAt, w.pollAt 2 < c := by decide
  have hrun := run_of_met (by decide) hbefore hmet hlive
  have hinstant : (w.run s).instant = 1892160000000000000 := by
    rw [hrun]
    decide
  have hinterval : w.settings.interval.nanos = 1000000000000000000 := by decide
  have htimeout : w.settings.timeout.nanos = 2000000000000000000 := by decide
  refine ⟨by decide, by rw [hrun], hinstant.trans (by decide), fun k => ?_⟩
  rw [hinstant, hinterval, htimeout, Nat.zero_add]
  -- no multiple of the interval, and not the time allowed either
  show (1892160000000000000 : Nat) ≠ min (k * 1000000000000000000) 2000000000000000000
  omega

end CatalogWait

end ShardKeeper
