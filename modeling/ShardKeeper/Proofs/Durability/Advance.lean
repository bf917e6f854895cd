import ShardKeeper.Durability.MemoryStore
import ShardKeeper.Proofs.Durability.Course

/-!
# When the commit point advances

Through every course of a ledger, from opening it on any stored commit point
and with any bounds on its history, the commit point moves only when a marker
leads to a later checkpoint, and it moves to exactly what that marker led to.

`point_follows_lookups` is the main result.  It speaks of *all* samples ever
taken in, not of those that trimming has left over, and of all look-ups, so
nothing in it depends on the bounds.
-/

namespace ShardKeeper

open Sample

theorem CommitPoint.mem_seed_iff {point : CommitPoint} {s : Sample} :
    s ∈ point.seed ↔
      (0 ≤ point.timestamp ∧ 0 ≤ point.checkpoint) ∧ s = ⟨point.timestamp, point.checkpoint⟩ := by
  unfold seed
  split <;> simp [*]

theorem CommitPoint.timestamp_nonneg_of_mem_seed {point : CommitPoint} {s : Sample}
    (h : s ∈ point.seed) : 0 ≤ s.timestamp := by
  obtain ⟨hknown, rfl⟩ := mem_seed_iff.mp h
  exact hknown.1

theorem CommitPoint.checkpoint_of_mem_seed {point : CommitPoint} {s : Sample}
    (h : s ∈ point.seed) : s.checkpoint = point.checkpoint := by
  obtain ⟨-, rfl⟩ := mem_seed_iff.mp h
  rfl

namespace LedgerCourse

variable {σ ε : Type} {save : σ → CommitPoint → σ × Except ε Unit}
variable {stored : CommitPoint} {c : LedgerCourse σ}

/-- **A look at a marker, in terms of all samples.**  Either the commit point advances to the
checkpoint of the newest sample at or before the marker's time, or the ledger stays as it is. -/
theorem Sound.look_cases (h : Sound stored c) (m : VersionMarker) :
    (∃ r, latest? c.accepted m.time = some r ∧ 0 ≤ r.checkpoint ∧
      c.ledger.point.checkpoint < r.checkpoint ∧ (c.look (some m)).2 = true ∧
      (c.look (some m)).1.ledger.point = ⟨m.time, m.version, r.checkpoint⟩) ∨
    ((c.look (some m)).2 = false ∧ (c.look (some m)).1.ledger = c.ledger) := by
  rcases c.ledger.observe_cases (some m) with ⟨m', point, hm, hadvance, hobserve⟩ | ⟨-, hobserve⟩
  · cases hm
    obtain ⟨checkpoint, hat, hknown, hlater, rfl⟩ := CommitLedger.advance?_eq_some_iff.mp hadvance
    obtain ⟨r, hr, rfl⟩ := h.latest?_of_at? hat
    exact Or.inl ⟨r, hr, hknown, hlater, by simp [LedgerCourse.look, hobserve],
      by simp [LedgerCourse.look, hobserve]⟩
  · exact Or.inr ⟨by simp [LedgerCourse.look, hobserve], by simp [LedgerCourse.look, hobserve]⟩

/-- As long as no sample is older than time zero, a marker without a time leads nowhere. -/
theorem Sound.look_of_no_time (h : Sound stored c) (hsamples : ∀ r ∈ c.accepted, 0 ≤ r.timestamp)
    {m : VersionMarker} (hm : m.timestamp = none) :
    (c.look (some m)).2 = false ∧ (c.look (some m)).1.ledger = c.ledger := by
  rcases h.look_cases m with ⟨r, hr, -⟩ | hstays
  · have hle : r.timestamp ≤ m.time := timestamp_le_of_latest? hr
    have hnonneg : 0 ≤ r.timestamp := hsamples r (mem_of_latest? hr)
    rw [VersionMarker.time, hm, Option.getD_none] at hle
    omega
  · exact hstays

/-- **One step.**  Either a look at a marker advances the commit point and says so, or the commit
point stays and no look says otherwise. -/
theorem Sound.step_cases (save : σ → CommitPoint → σ × Except ε Unit) (h : Sound stored c)
    (s : LedgerStep) :
    (∃ m r, s.marker? = some m ∧ (c.step save s).2 = true ∧
      latest? (c.step save s).1.accepted m.time = some r ∧ 0 ≤ r.checkpoint ∧
      c.ledger.point.checkpoint < r.checkpoint ∧
      (c.step save s).1.ledger.point = ⟨m.time, m.version, r.checkpoint⟩) ∨
    ((c.step save s).1.ledger.point = c.ledger.point ∧
      (s.marker?.isSome → (c.step save s).2 = false)) := by
  cases hm : s.marker? with
  | none => exact Or.inr ⟨point_step_of_no_marker save c hm, by simp⟩
  | some m =>
      rw [step_of_marker save c hm, accepted_look]
      rcases (h.sampled s).look_cases m with
        ⟨r, hr, hknown, hlater, htold, hpoint⟩ | ⟨htold, hstays⟩
      · rw [point_sampled] at hlater
        exact Or.inl ⟨m, r, rfl, htold, hr, hknown, hlater, hpoint⟩
      · exact Or.inr ⟨by rw [hstays, point_sampled], fun _ => htold⟩

/-- While no sample is older than time zero, a step whose marker has no time does nothing but offer
its sample. -/
theorem Sound.step_of_no_time (h : Sound stored c) {s : LedgerStep} {m : VersionMarker}
    (hm : s.marker? = some m) (hno : m.timestamp = none)
    (hsamples : ∀ r ∈ (c.step save s).1.accepted, 0 ≤ r.timestamp) :
    (c.step save s).2 = false ∧ (c.step save s).1.ledger = (c.sampled s).ledger ∧
      (c.step save s).1.store = c.store := by
  rw [step_of_marker save c hm] at hsamples ⊢
  obtain ⟨htold, hstays⟩ := (h.sampled s).look_of_no_time hsamples hno
  exact ⟨htold, hstays, store_sampled c s⟩

/-- Whatever was taken in is no older than time zero if that is true of all that was offered. -/
theorem timestamp_nonneg_of_run (maxSamples maxAge : Nat) (store : σ) {steps : List LedgerStep}
    (hoffered : ∀ r ∈ steps.filterMap LedgerStep.sample?, 0 ≤ r.timestamp) {r : Sample}
    (hr : r ∈ ((begin maxSamples maxAge stored store).run save steps).accepted) :
    0 ≤ r.timestamp := by
  rcases List.mem_append.mp ((accepted_run save _ _).subset hr) with hseed | hstep
  · exact CommitPoint.timestamp_nonneg_of_mem_seed hseed
  · exact hoffered r hstep

/-- Nothing is taken in that is older than the seed of the history. -/
theorem seed_le_of_run (save : σ → CommitPoint → σ × Except ε Unit) (maxSamples maxAge : Nat)
    (store : σ) (steps : List LedgerStep) {s r : Sample} (hs : s ∈ stored.seed)
    (hr : r ∈ ((begin maxSamples maxAge stored store).run save steps).accepted) :
    s.timestamp ≤ r.timestamp := by
  have horder := ((Sound.begin maxSamples maxAge stored store).run save steps).order
  obtain ⟨later, hlater⟩ := accepted_prefix_run save (begin maxSamples maxAge stored store) steps
  rw [← hlater] at hr horder
  rcases List.mem_append.mp hr with hseed | hrest
  · refine Int.le_of_eq ?_
    rw [(CommitPoint.mem_seed_iff.mp hs).2, (CommitPoint.mem_seed_iff.mp hseed).2]
  · exact (List.pairwise_append.mp horder).2.2 s hs r hrest

/-- The commit point only ever advances to a checkpoint that some step has offered, and only in a
look at a marker that is no older than the seed: the checkpoint of the seed is no later than the
point that the ledger was opened on. -/
theorem exists_offered_of_advance (save : σ → CommitPoint → σ × Except ε Unit)
    (maxSamples maxAge : Nat) (stored : CommitPoint) (store : σ) (steps : List LedgerStep)
    (s : LedgerStep)
    (hadvance : ((begin maxSamples maxAge stored store).run save (steps ++ [s])).ledger.point ≠
      ((begin maxSamples maxAge stored store).run save steps).ledger.point) :
    ∃ m r, s.marker? = some m ∧ r ∈ (steps ++ [s]).filterMap LedgerStep.sample? ∧
      r.timestamp ≤ m.time ∧ (∀ t ∈ stored.seed, t.timestamp ≤ m.time) ∧
      ((begin maxSamples maxAge stored store).run save (steps ++ [s])).ledger.point =
        ⟨m.time, m.version, r.checkpoint⟩ := by
  have hc := (Sound.begin maxSamples maxAge stored store).run save steps
  have haccepted := accepted_run save (begin maxSamples maxAge stored store) (steps ++ [s])
  have hseed : ∀ t ∈ stored.seed, ∀ r ∈ ((begin maxSamples maxAge stored store).run save
      (steps ++ [s])).accepted, t.timestamp ≤ r.timestamp :=
    fun t ht r hr => seed_le_of_run save maxSamples maxAge store _ ht hr
  rw [run_concat] at hadvance haccepted hseed ⊢
  rcases hc.step_cases save s with ⟨m, r, hm, -, hr, -, hlater, hpoint⟩ | ⟨hpoint, -⟩
  · have hmem := mem_of_latest? hr
    have hle := timestamp_le_of_latest? hr
    refine ⟨m, r, hm, ?_, hle, fun t ht => Int.le_trans (hseed t ht r hmem) hle, hpoint⟩
    rcases List.mem_append.mp (haccepted.subset hmem) with hold | hoffered
    · -- the seed has the stored checkpoint, which is not later than the commit point
      rw [CommitPoint.checkpoint_of_mem_seed hold] at hlater
      exact absurd hlater (Int.not_lt.mpr hc.le_checkpoint)
    · exact hoffered
  · exact absurd hpoint hadvance

/-- **The commit point follows the look-ups.**  After any steps `steps` since the opening, and in
any step `s` that comes next:

* the checkpoint is the greatest of the stored one and all known ones that markers have led to, and
  it does not decrease;
* the commit point changes exactly in a look at a marker that says so;
* it changes to the marker's version and time and to the checkpoint of the newest sample ever taken
  in at or before that time, which is a known one;
* while no sample time is negative, a marker without a time changes nothing. -/
theorem point_follows_lookups (save : σ → CommitPoint → σ × Except ε Unit)
    (maxSamples maxAge : Nat) (stored : CommitPoint) (store : σ) (steps : List LedgerStep)
    (s : LedgerStep) :
    let c := (begin maxSamples maxAge stored store).run save steps
    let d := (c.step save s).1
    let answer := (c.step save s).2
    c.ledger.point.checkpoint = (c.lookups.filter (0 ≤ ·)).foldl max stored.checkpoint ∧
    c.ledger.point.checkpoint ≤ d.ledger.point.checkpoint ∧
    (d.ledger.point ≠ c.ledger.point ↔ s.marker?.isSome ∧ answer = true) ∧
    (d.ledger.point ≠ c.ledger.point → ∃ m r, s.marker? = some m ∧
      latest? d.accepted m.time = some r ∧ 0 ≤ r.checkpoint ∧
      d.ledger.point = ⟨m.time, m.version, r.checkpoint⟩) ∧
    ((∀ r ∈ (steps ++ [s]).filterMap LedgerStep.sample?, 0 ≤ r.timestamp) →
      ∀ m, s.marker? = some m → m.timestamp = none →
        answer = false ∧ d.ledger = (c.sampled s).ledger ∧ d.store = c.store) := by
  intro c d answer
  have hc : Sound stored c := (Sound.begin maxSamples maxAge stored store).run save steps
  have hrun : (begin maxSamples maxAge stored store).run save (steps ++ [s]) = d :=
    run_concat save _ steps s
  have hnotime : (∀ r ∈ (steps ++ [s]).filterMap LedgerStep.sample?, 0 ≤ r.timestamp) →
      ∀ m, s.marker? = some m → m.timestamp = none →
        answer = false ∧ d.ledger = (c.sampled s).ledger ∧ d.store = c.store := by
    intro hoffered m hm hno
    refine hc.step_of_no_time hm hno ?_
    show ∀ r ∈ d.accepted, 0 ≤ r.timestamp
    rw [← hrun]
    exact fun r hr => timestamp_nonneg_of_run maxSamples maxAge store hoffered hr
  rcases hc.step_cases save s with
    ⟨m, r, hm, htold, hr, hknown, hlater, hpoint⟩ | ⟨hpoint, htold⟩
  · have hne : d.ledger.point ≠ c.ledger.point := by
      intro heq
      rw [← heq, show d.ledger.point = _ from hpoint] at hlater
      exact Int.lt_irrefl _ hlater
    refine ⟨hc.checkpoint, ?_, ?_, fun _ => ⟨m, r, hm, hr, hknown, hpoint⟩, hnotime⟩
    · rw [show d.ledger.point = _ from hpoint]
      exact Int.le_of_lt hlater
    · exact ⟨fun _ => ⟨by rw [hm]; rfl, htold⟩, fun _ => hne⟩
  · refine ⟨hc.checkpoint, Int.le_of_eq (by rw [show d.ledger.point = _ from hpoint]), ?_,
      fun hne => absurd hpoint hne, hnotime⟩
    refine ⟨fun hne => absurd hpoint hne, fun ⟨hmarker, htrue⟩ => ?_⟩
    rw [show answer = false from htold hmarker] at htrue
    cases htrue

/-- A course with two samples: a marker between them leads to the first, and one without a time
leads nowhere. -/
theorem point_follows_lookups_between_samples :
    let c := (begin 4 1000 .unknown (MemoryStore.holding .unknown)).run MemoryStore.store
      [.sample 1000 5, .sample 2000 9]
    let between := (c.step MemoryStore.store (.observe (some ⟨1, some 1500⟩))).1
    let without := c.step MemoryStore.store (.refresh 3000 12 (some ⟨2, none⟩))
    (∃ m r, (LedgerStep.observe (some ⟨1, some 1500⟩)).marker? = some m ∧
      latest? between.accepted m.time = some r ∧ 0 ≤ r.checkpoint ∧
      between.ledger.point = ⟨m.time, m.version, r.checkpoint⟩) ∧
    between.ledger.point = ⟨1500, 1, 5⟩ ∧
    without.2 = false ∧ without.1.ledger.point = .unknown := by
  have hbetween := point_follows_lookups MemoryStore.store 4 1000 .unknown
    (MemoryStore.holding .unknown) [.sample 1000 5, .sample 2000 9]
    (.observe (some ⟨1, some 1500⟩))
  have hwithout := point_follows_lookups MemoryStore.store 4 1000 .unknown
    (MemoryStore.holding .unknown) [.sample 1000 5, .sample 2000 9]
    (.refresh 3000 12 (some ⟨2, none⟩))
  refine ⟨hbetween.2.2.2.1 (by decide), by decide, ?_, by decide⟩
  exact (hwithout.2.2.2.2 (by decide) ⟨2, none⟩ rfl rfl).1

end LedgerCourse

end ShardKeeper
