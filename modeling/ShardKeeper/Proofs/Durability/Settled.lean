import ShardKeeper.Proofs.Durability.Advance

/-!
# Settled commit points

A commit point is *settled* when nothing that was taken in at or before its time
leads any further than it does.  A look at a marker can then advance it only to
a later time, so the timestamp of the commit point rises whenever its checkpoint
does.

What unsettles a commit point is a sample taken at or before its time.  On a
clock that rises this needs a marker from the future: one dated after the clock
of the refresh that looks at it.

## Main definitions

* `LedgerCourse.Settled` — the invariant.
* `LedgerCourse.AdvancesLater` — the commit point stays or advances to a later time.
* `InTime` — steps under a rising clock and without markers from the future.

## Main results

* `InTime.settled` — steps in time keep the commit point settled.
* `InTime.advancesLater` — they raise its timestamp with every advance.
-/

namespace ShardKeeper

open Sample

/-- Known checkpoints never fall, apart from those that are no greater than `floor`. -/
def Sample.Rising (floor : Int) (samples : List Sample) : Prop :=
  samples.Pairwise fun a b =>
    0 ≤ a.checkpoint → 0 ≤ b.checkpoint → a.checkpoint ≤ max floor b.checkpoint

namespace LedgerCourse

variable {σ ε : Type} {save : σ → CommitPoint → σ × Except ε Unit}
variable {stored : CommitPoint} {c : LedgerCourse σ}

/-- Nothing known that was taken in at or before the time of the commit point leads any further. -/
def Settled (c : LedgerCourse σ) : Prop :=
  ∀ r ∈ c.accepted, 0 ≤ r.checkpoint → r.timestamp ≤ c.ledger.point.timestamp →
    r.checkpoint ≤ c.ledger.point.checkpoint

/-- From `c` to `d` the commit point stays or advances to a later time. -/
def AdvancesLater (c d : LedgerCourse σ) : Prop :=
  d.ledger.point ≠ c.ledger.point → c.ledger.point.timestamp < d.ledger.point.timestamp

namespace Settled

theorem begin (maxSamples maxAge : Nat) (stored : CommitPoint) (store : σ) :
    Settled (LedgerCourse.begin maxSamples maxAge stored store) := by
  intro r hr _ _
  exact Int.le_of_eq (CommitPoint.checkpoint_of_mem_seed hr)

/-- What a step offers leaves a commit point settled if it was taken after its time. -/
theorem sampled (h : Settled c) {s : LedgerStep}
    (hlater : ∀ r ∈ s.sample?, c.ledger.point.timestamp < r.timestamp) :
    Settled (c.sampled s) := by
  intro r hr hknown hle
  rw [point_sampled] at hle ⊢
  rcases List.mem_append.mp ((accepted_sampled c s).2.subset hr) with hold | hnew
  · exact h r hold hknown hle
  · exact absurd hle (Int.not_le.mpr (hlater r (Option.mem_toList.mp hnew)))

/-- **A look at a marker keeps a settled commit point settled**, and advances it to a later time or
not at all. -/
theorem look (h : Settled c) (hc : Sound stored c)
    (hrise : Rising stored.checkpoint c.accepted) (m : VersionMarker) :
    Settled (c.look (some m)).1 ∧ c.AdvancesLater (c.look (some m)).1 := by
  unfold AdvancesLater
  rcases hc.look_cases m with ⟨r, hr, hknown, hlater, -, hpoint⟩ | ⟨-, hstays⟩
  · have hbound := hc.le_checkpoint
    refine ⟨?_, fun _ => ?_⟩
    · intro a ha haknown hale
      rw [hpoint] at hale ⊢
      -- samples of equal times are told apart by their places
      rcases eq_or_before_of_latest? hr ha hale with rfl | ⟨older, newer, hsplit, hbefore⟩
      · exact Int.le_refl _
      · rw [hsplit] at hrise
        have hle :=
          (List.pairwise_append.mp hrise).2.2 a hbefore r List.mem_cons_self haknown hknown
        show a.checkpoint ≤ r.checkpoint
        omega
    · rw [hpoint]
      -- a marker of the same time or an earlier one leads to a sample that was settled before
      by_contra hnot
      have htime : r.timestamp ≤ m.time := timestamp_le_of_latest? hr
      have hle := h r (mem_of_latest? hr) hknown (Int.le_trans htime (Int.not_lt.mp hnot))
      omega
  · rw [hstays]
    refine ⟨?_, fun hne => absurd rfl hne⟩
    intro a ha
    rw [hstays]
    exact h a ha

theorem step (h : Settled c) (hc : Sound stored c) {s : LedgerStep}
    (hlater : ∀ r ∈ s.sample?, c.ledger.point.timestamp < r.timestamp)
    (hrise : Rising stored.checkpoint (c.step save s).1.accepted) :
    Settled (c.step save s).1 ∧ c.AdvancesLater (c.step save s).1 := by
  cases hm : s.marker? with
  | none =>
      have hpoint := point_step_of_no_marker save c hm
      refine ⟨?_, fun hne => absurd hpoint hne⟩
      intro r hr
      rw [accepted_step_eq] at hr
      rw [hpoint, ← point_sampled c s]
      exact h.sampled hlater r hr
  | some m =>
      rw [accepted_step_eq] at hrise
      rw [step_of_marker save c hm, AdvancesLater, ← point_sampled c s]
      exact (h.sampled hlater).look (hc.sampled s) hrise m

end Settled

end LedgerCourse

/-! ### Steps in time -/

/-- Steps with a rising clock that starts after the stored time, with known checkpoints that never
fall, and with no marker dated after the clock of the step that looks at it. -/
structure InTime (stored : CommitPoint) (steps : List LedgerStep) : Prop where
  clock : (stored.timestamp :: (steps.filterMap LedgerStep.sample?).map Sample.timestamp).Pairwise
    (· < ·)
  rise : (steps.filterMap LedgerStep.sample?).Pairwise fun a b =>
    0 ≤ a.checkpoint → 0 ≤ b.checkpoint → a.checkpoint ≤ b.checkpoint
  marker : ∀ s ∈ steps, ∀ m ∈ s.marker?, ∃ r ∈ s.sample?, m.time ≤ r.timestamp

namespace InTime

variable {stored : CommitPoint} {steps : List LedgerStep} {s : LedgerStep}

theorem of_front {front : List LedgerStep} (h : InTime stored steps) (hfront : front <+: steps) :
    InTime stored front := by
  have hsamples := hfront.filterMap LedgerStep.sample?
  refine ⟨h.clock.sublist ?_, h.rise.sublist hsamples.sublist, ?_⟩
  · exact (hsamples.map Sample.timestamp).sublist.cons_cons _
  · exact fun s hs => h.marker s (hfront.subset hs)

theorem front (h : InTime stored (steps ++ [s])) : InTime stored steps :=
  h.of_front (List.prefix_append ..)

/-- The sample of the last step is later than the stored time and all samples before. -/
theorem clock_last (h : InTime stored (steps ++ [s])) {r : Sample} (hr : r ∈ s.sample?) :
    stored.timestamp < r.timestamp ∧
      ∀ a ∈ steps.filterMap LedgerStep.sample?, a.timestamp < r.timestamp := by
  have hclock := h.clock
  rw [List.filterMap_append, List.map_append, ← List.cons_append] at hclock
  have hlast : r.timestamp ∈ ([s].filterMap LedgerStep.sample?).map Sample.timestamp :=
    List.mem_map_of_mem (List.mem_filterMap.mpr ⟨s, List.mem_singleton_self s, hr⟩)
  have hbefore := fun t ht => (List.pairwise_append.mp hclock).2.2 t ht _ hlast
  exact ⟨hbefore _ List.mem_cons_self,
    fun a ha => hbefore _ (List.mem_cons_of_mem _ (List.mem_map_of_mem ha))⟩

theorem rising (h : InTime stored steps) :
    Rising stored.checkpoint (stored.seed ++ steps.filterMap LedgerStep.sample?) := by
  refine List.pairwise_append.mpr ⟨?_, h.rise.imp fun hab ha hb => ?_, ?_⟩
  · rw [CommitPoint.seed]
    split
    · exact List.pairwise_singleton _ _
    · exact List.Pairwise.nil
  · exact Int.le_trans (hab ha hb) (Int.le_max_right ..)
  · intro a ha b _ _ _
    rw [CommitPoint.checkpoint_of_mem_seed ha]
    exact Int.le_max_left ..

variable {σ ε : Type} (save : σ → CommitPoint → σ × Except ε Unit)
variable (maxSamples maxAge : Nat) (store : σ)

theorem rising_run (h : InTime stored steps) : Rising stored.checkpoint
    ((LedgerCourse.begin maxSamples maxAge stored store).run save steps).accepted :=
  h.rising.sublist (LedgerCourse.accepted_run save _ steps)

/-- The commit point is no newer than the stored one or than something that was offered. -/
theorem timestamp_le (h : InTime stored steps) {point : CommitPoint}
    (hpoint : ((LedgerCourse.begin maxSamples maxAge stored store).run save steps).ledger.point =
      point) :
    point.timestamp ≤ stored.timestamp ∨
      ∃ r ∈ steps.filterMap LedgerStep.sample?, point.timestamp ≤ r.timestamp := by
  induction steps using List.reverseRecOn generalizing point with
  | nil =>
      rw [← hpoint]
      exact Or.inl (Int.le_refl _)
  | append_singleton past s ih =>
      have hc := (LedgerCourse.Sound.begin maxSamples maxAge stored store).run save past
      rw [LedgerCourse.run_concat] at hpoint
      rcases hc.step_cases save s with ⟨m, r, hm, -, -, -, -, hnew⟩ | ⟨hsame, -⟩
      · obtain ⟨a, ha, hle⟩ := h.marker s (by simp) m hm
        rw [← hpoint, hnew]
        exact Or.inr ⟨a, List.mem_filterMap.mpr ⟨s, by simp, ha⟩, hle⟩
      · rw [List.filterMap_append]
        rcases ih h.front (hsame.symm.trans hpoint) with hstored | ⟨a, ha, hle⟩
        · exact Or.inl hstored
        · exact Or.inr ⟨a, List.mem_append_left _ ha, hle⟩

/-- The last step offers nothing that is no newer than the commit point. -/
theorem timestamp_lt_last {past : List LedgerStep} (h : InTime stored (past ++ [s])) :
    ∀ r ∈ s.sample?, ((LedgerCourse.begin maxSamples maxAge stored store).run save
      past).ledger.point.timestamp < r.timestamp := by
  intro r hr
  obtain ⟨hstored, hbefore⟩ := h.clock_last hr
  rcases h.front.timestamp_le save maxSamples maxAge store rfl with hle | ⟨a, ha, hle⟩
  · exact Int.lt_of_le_of_lt hle hstored
  · exact Int.lt_of_le_of_lt hle (hbefore a ha)

/-- **Steps in time keep the commit point settled.** -/
theorem settled (h : InTime stored steps) :
    ((LedgerCourse.begin maxSamples maxAge stored store).run save steps).Settled := by
  induction steps using List.reverseRecOn with
  | nil => exact LedgerCourse.Settled.begin maxSamples maxAge stored store
  | append_singleton past s ih =>
      have hc := (LedgerCourse.Sound.begin maxSamples maxAge stored store).run save past
      have hrise := h.rising_run save maxSamples maxAge store
      rw [LedgerCourse.run_concat] at hrise ⊢
      exact ((ih h.front).step hc (h.timestamp_lt_last save maxSamples maxAge store) hrise).1

/-- **In time, every advance of the commit point raises its timestamp.** -/
theorem advancesLater {past : List LedgerStep} (h : InTime stored (past ++ [s])) :
    ((LedgerCourse.begin maxSamples maxAge stored store).run save past).AdvancesLater
      ((LedgerCourse.begin maxSamples maxAge stored store).run save (past ++ [s])) := by
  have hc := (LedgerCourse.Sound.begin maxSamples maxAge stored store).run save past
  have hrise := h.rising_run save maxSamples maxAge store
  rw [LedgerCourse.run_concat] at hrise ⊢
  exact ((h.front.settled save maxSamples maxAge store).step hc
    (h.timestamp_lt_last save maxSamples maxAge store) hrise).2

end InTime

end ShardKeeper
