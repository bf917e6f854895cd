import ShardKeeper.Proofs.Durability.Advance
import ShardKeeper.Shard.Refresh

/-!
# Refreshes by the microsecond

A refresh reads the local checkpoint, then the clock, then the newest version
marker.  The clock is cut to whole milliseconds, and so is the persist time in
the marker.  This file asks what a commit still says about the instants behind
the two numbers.

## Main definitions

* `EngineVersion` — a version and the instant at which the engine persisted it.
* `TimedRefresh` — a refresh with its instants, in microseconds.
* `DurableBy` — some refresh had read a checkpoint by an instant.

## Main results

`advance_durable_by_millisecond`: a commit claims what was durable by the end of
the *millisecond* in which the version was persisted, and no more.  The cut of
the sample's clock is what costs the rest of that millisecond: a checkpoint read
after the persist but in the same millisecond is dated before it, and
`advance_before_durable` commits one.  Nothing else is lost, but that much is
lost for every instant of a persist that is not the last microsecond of its
millisecond.
-/

namespace ShardKeeper

/-- A version on the engine's disk, and the instant at which it was persisted. -/
structure EngineVersion where
  version : Int
  persistedAt : Nat
deriving DecidableEq

/-- The marker that the engine leaves of a version. -/
def EngineVersion.marker (v : EngineVersion) : VersionMarker :=
  .ofMicros v.version (some v.persistedAt)

/-- A refresh with the instants of its first two readings.  The checkpoint is read first. -/
structure TimedRefresh where
  readAt : Nat
  clockAt : Nat
  readAt_le_clockAt : readAt ≤ clockAt
  /-- The local checkpoint at `readAt`. -/
  checkpoint : Int
  /-- The newest version that the engine has persisted by the time of the third reading. -/
  found : Option EngineVersion
deriving DecidableEq

namespace TimedRefresh

/-- What the clock shows: whole milliseconds. -/
def clock (t : TimedRefresh) : Int := (t.clockAt / 1000 : Nat)

/-- The refresh as a step of the ledger. -/
def step (t : TimedRefresh) : LedgerStep :=
  .refresh t.clock t.checkpoint (t.found.map EngineVersion.marker)

end TimedRefresh

theorem EngineVersion.time_marker (v : EngineVersion) :
    v.marker.time = (v.persistedAt / 1000 : Nat) := by
  rw [marker, VersionMarker.ofMicros, VersionMarker.time, Option.map_some, Option.getD_some]
  exact (Int.ofNat_tdiv v.persistedAt 1000).symm

/-- A checkpoint is no greater than the stored one, or some refresh had read it by an instant. -/
def DurableBy (stored : CommitPoint) (refreshes : List TimedRefresh) (checkpoint : Int)
    (instant : Nat) : Prop :=
  checkpoint ≤ stored.checkpoint ∨
    ∃ r ∈ refreshes, r.checkpoint = checkpoint ∧ r.readAt ≤ instant

instance (stored : CommitPoint) (refreshes : List TimedRefresh) (checkpoint : Int)
    (instant : Nat) : Decidable (DurableBy stored refreshes checkpoint instant) :=
  inferInstanceAs (Decidable (_ ∨ _))

namespace TimedRefresh

variable {σ ε : Type} (save : σ → CommitPoint → σ × Except ε Unit)
variable (maxSamples maxAge : Nat) (stored : CommitPoint) (store : σ)

/-- The commit point of a ledger after some refreshes since it was opened. -/
def pointAfter (refreshes : List TimedRefresh) : CommitPoint :=
  ((LedgerCourse.begin maxSamples maxAge stored store).run save
    (refreshes.map TimedRefresh.step)).ledger.point

theorem mem_samples_iff {refreshes : List TimedRefresh} {s : Sample} :
    s ∈ (refreshes.map TimedRefresh.step).filterMap LedgerStep.sample? ↔
      ∃ r ∈ refreshes, s = ⟨r.clock, r.checkpoint⟩ := by
  simp [step, LedgerStep.sample?, eq_comm]

/-- A reading that is dated no later than a persist was made no later than in the same
millisecond. -/
theorem readAt_div_le {r : TimedRefresh} {v : EngineVersion} (h : r.clock ≤ v.marker.time) :
    r.readAt / 1000 ≤ v.persistedAt / 1000 := by
  rw [clock, v.time_marker, Int.ofNat_le] at h
  exact le_trans (Nat.div_le_div_right r.readAt_le_clockAt) h

/-- An advance commits a checkpoint that some refresh has read, no later than in the millisecond of
the version, and the version is no older than the seed. -/
theorem exists_read_of_advance {past : List TimedRefresh} {t : TimedRefresh}
    (hadvance : pointAfter save maxSamples maxAge stored store (past ++ [t]) ≠
      pointAfter save maxSamples maxAge stored store past) :
    ∃ v r, t.found = some v ∧ r ∈ past ++ [t] ∧
      r.checkpoint = (pointAfter save maxSamples maxAge stored store (past ++ [t])).checkpoint ∧
      r.readAt / 1000 ≤ v.persistedAt / 1000 ∧ ∀ s ∈ stored.seed, s.timestamp ≤ v.marker.time := by
  unfold pointAfter at hadvance ⊢
  rw [List.map_append, List.map_singleton] at hadvance ⊢
  obtain ⟨m, s, hm, hs, hle, hseed, hpoint⟩ := LedgerCourse.exists_offered_of_advance save
    maxSamples maxAge stored store _ _ hadvance
  obtain ⟨v, hv, rfl⟩ := Option.map_eq_some_iff.mp hm
  rw [← List.map_singleton, ← List.map_append, mem_samples_iff] at hs
  obtain ⟨r, hr, rfl⟩ := hs
  exact ⟨v, r, hv, hr, by rw [hpoint], readAt_div_le hle, hseed⟩

/-- The only refresh of a course commits what it has read, if its clock shows no less than the time
of the seed and no more than the version's. -/
theorem pointAfter_singleton {t : TimedRefresh} {v : EngineVersion} (hv : t.found = some v)
    (hseed : ∀ s ∈ stored.seed, s.timestamp ≤ t.clock) (hle : t.clock ≤ v.marker.time)
    (hknown : 0 ≤ t.checkpoint) (hlater : stored.checkpoint < t.checkpoint) :
    pointAfter save maxSamples maxAge stored store [t] =
      ⟨v.marker.time, v.version, t.checkpoint⟩ := by
  have h₀ := LedgerCourse.Sound.begin maxSamples maxAge stored store
  have hok : (LedgerCourse.begin maxSamples maxAge stored store).ledger.history.accepts t.clock =
      true := by
    rw [CheckpointHistory.accepts_iff, h₀.newest]
    exact fun s hs => hseed s (List.mem_of_getLast? hs)
  have hat := (h₀.take ⟨t.clock, t.checkpoint⟩).at?_of_newest (s := ⟨t.clock, t.checkpoint⟩)
    (by rw [LedgerCourse.take_of_accepts hok]; simp) hle
  have hadvance := CommitLedger.advance?_eq_some_iff.mpr
    ⟨t.checkpoint, hat, hknown, by rw [LedgerCourse.point_take]; exact hlater, rfl⟩
  simp only [pointAfter, step, List.map_cons, List.map_nil, LedgerCourse.run_cons,
    LedgerCourse.run_nil, LedgerCourse.step, LedgerCourse.look, CommitLedger.observe, hv,
    Option.map_some, Option.bind_some, hadvance]
  rfl

/-- The earliest a refresh can read after a persist is a microsecond later. -/
def justAfter (stored : CommitPoint) (v : EngineVersion) : TimedRefresh where
  readAt := v.persistedAt + 1
  clockAt := v.persistedAt + 1
  readAt_le_clockAt := le_rfl
  checkpoint := max 0 (stored.checkpoint + 1)
  found := some v

/-- Within the millisecond, the refresh just after a persist commits what it has read, although
nothing of it was durable by then. -/
theorem not_durableBy_justAfter (v : EngineVersion) (hmilli : v.persistedAt % 1000 ≠ 999)
    (hseed : ∀ s ∈ stored.seed, s.timestamp ≤ v.marker.time) :
    pointAfter save maxSamples maxAge stored store [justAfter stored v] ≠ stored ∧
      ¬ DurableBy stored [justAfter stored v]
        (pointAfter save maxSamples maxAge stored store [justAfter stored v]).checkpoint
        v.persistedAt := by
  have hlater : stored.checkpoint < max 0 (stored.checkpoint + 1) := by omega
  have hclock : (justAfter stored v).clock = v.marker.time := by
    -- the persist was not in the last microsecond, so the next one has the same milliseconds
    have hsame : (v.persistedAt + 1) / 1000 = v.persistedAt / 1000 := by omega
    rw [clock, justAfter, v.time_marker, hsame]
  have hpoint := pointAfter_singleton save maxSamples maxAge stored store
    (t := justAfter stored v) (v := v) rfl (by rw [hclock]; exact hseed) (Int.le_of_eq hclock)
    (Int.le_max_left ..) hlater
  rw [hpoint]
  refine ⟨fun heq => ?_, ?_⟩
  · have hcheckpoint := congrArg CommitPoint.checkpoint heq
    exact absurd hcheckpoint (Int.ne_of_gt hlater)
  · rintro (hstored | ⟨r, hr, -, hread⟩)
    · exact absurd hlater (Int.not_lt.mpr hstored)
    · obtain rfl := List.mem_singleton.mp hr
      exact absurd hread (Nat.not_succ_le_self _)

/-- **A commit claims what was durable by the millisecond.**  For every ledger:

* an advance commits a checkpoint that some refresh had read by the end of the millisecond in which
  the version was persisted;
* it was durable by the instant of the persist unless a refresh has read it in what was left of
  that millisecond;
* advances to the versions of an instant are all durable by that instant exactly if it is the last
  microsecond of its millisecond, or if the stored point is too new for any advance. -/
theorem advance_durable_by_millisecond :
    (∀ (past : List TimedRefresh) (t : TimedRefresh),
      let after := pointAfter save maxSamples maxAge stored store (past ++ [t])
      after ≠ pointAfter save maxSamples maxAge stored store past →
      ∃ v, t.found = some v ∧
        DurableBy stored (past ++ [t]) after.checkpoint (v.persistedAt / 1000 * 1000 + 999) ∧
        ((∀ r ∈ past ++ [t], r.checkpoint = after.checkpoint →
            r.readAt / 1000 = v.persistedAt / 1000 → r.readAt ≤ v.persistedAt) →
          DurableBy stored (past ++ [t]) after.checkpoint v.persistedAt)) ∧
    ∀ instant : Nat,
      (∀ (past : List TimedRefresh) (t : TimedRefresh) (v : EngineVersion),
        let after := pointAfter save maxSamples maxAge stored store (past ++ [t])
        after ≠ pointAfter save maxSamples maxAge stored store past →
        t.found = some v → v.persistedAt = instant →
        DurableBy stored (past ++ [t]) after.checkpoint instant) ↔
      instant % 1000 = 999 ∨ ∃ s ∈ stored.seed, (instant / 1000 : Nat) < s.timestamp := by
  refine ⟨?_, fun instant => ⟨?_, ?_⟩⟩
  · intro past t after hadvance
    obtain ⟨v, r, hv, hr, hcheckpoint, hread, -⟩ :=
      exists_read_of_advance save maxSamples maxAge stored store hadvance
    refine ⟨v, hv, Or.inr ⟨r, hr, hcheckpoint, by omega⟩, fun hwindow => ?_⟩
    have hearly := hwindow r hr hcheckpoint
    exact Or.inr ⟨r, hr, hcheckpoint, by omega⟩
  · intro hdurable
    by_contra hcondition
    obtain ⟨hmilli, hseed⟩ := not_or.mp hcondition
    obtain ⟨hne, hnot⟩ := not_durableBy_justAfter save maxSamples maxAge stored store ⟨1, instant⟩
      hmilli (fun s hs => by
        rw [EngineVersion.time_marker]
        exact Int.not_lt.mp fun hlt => hseed ⟨s, hs, hlt⟩)
    exact hnot (hdurable [] _ _ hne rfl rfl)
  · intro hcondition past t v after hadvance hv hinstant
    obtain ⟨v', r, hv', hr, hcheckpoint, hread, hseed⟩ :=
      exists_read_of_advance save maxSamples maxAge stored store hadvance
    obtain rfl : v = v' := Option.some.inj (hv.symm.trans hv')
    rcases hcondition with hmilli | ⟨s, hs, hlt⟩
    · -- no instant of the millisecond comes after the persist
      exact Or.inr ⟨r, hr, hcheckpoint, by omega⟩
    · -- an advance needs a version that is no older than the seed
      have hle := hseed s hs
      rw [v.time_marker, hinstant] at hle
      exact absurd hlt (Int.not_lt.mpr hle)

/-- A checkpoint read a tenth of a millisecond before a persist is committed with reason, and so is
everything that is committed with a version of the last microsecond of a millisecond. -/
theorem advance_durable_of_read_before :
    let t : TimedRefresh := ⟨1100, 1100, Nat.le_refl _, 5, some ⟨1, 1200⟩⟩
    let pointAfter := pointAfter MemoryStore.store 4 1000 .unknown (MemoryStore.holding .unknown)
    DurableBy .unknown [t] (pointAfter [t]).checkpoint 1200 ∧
    ∀ (past : List TimedRefresh) (t : TimedRefresh) (v : EngineVersion),
      pointAfter (past ++ [t]) ≠ pointAfter past → t.found = some v → v.persistedAt = 1999 →
      DurableBy .unknown (past ++ [t]) (pointAfter (past ++ [t])).checkpoint 1999 := by
  intro t _
  have hmain := advance_durable_by_millisecond MemoryStore.store 4 1000 .unknown
    (MemoryStore.holding .unknown)
  refine ⟨?_, (hmain.2 1999).mpr (Or.inl (by decide))⟩
  obtain ⟨v, hv, -, hwindow⟩ := hmain.1 [] t (by decide)
  obtain rfl := Option.some.inj hv
  exact hwindow (by decide)

/-- A checkpoint read three tenths of a millisecond *after* a persist is committed as well. -/
theorem advance_before_durable :
    let t : TimedRefresh := ⟨1500, 1500, Nat.le_refl _, 5, some ⟨1, 1200⟩⟩
    let after := pointAfter MemoryStore.store 4 1000 .unknown (MemoryStore.holding .unknown) [t]
    after = ⟨1, 1, 5⟩ ∧ ¬ DurableBy .unknown [t] after.checkpoint 1200 := by
  decide

end TimedRefresh

end ShardKeeper
