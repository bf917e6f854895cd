import ShardKeeper.Proofs.Durability.Settled

/-!
# Refresh after refresh

A ledger is opened on a stored commit point and then refreshed again and again.
A look at a marker compares checkpoints and never timestamps.  This file shows
that the timestamps rise all the same, in whatever order the markers come, as long as
none of them is dated after the clock of the refresh that looks at it.

## Main definitions

* `RefreshTick` — what one refresh reads.
* `CommitLedger.refreshAll` — a ledger after some refreshes.
* `RefreshTick.Timely` — the readings of a clock that rises, of known checkpoints that never fall
  and of markers that are not from the future.
* `CommitPoint.Rises` — a commit point stays, or its timestamp and its checkpoint both rise.

## Main results

* `RefreshTick.Timely.inTime` — timely refreshes are steps in time.
* `RefreshTick.Timely.rises_step`, `RefreshTick.Timely.rises_run` — the commit point rises, in a
  refresh and over many.
* `CommitLedger.advance_raises_time` — with what a refresh tells of it.

The bounds on the history stand nowhere in the hypotheses: what trimming loses
is an answer, and a refresh without an answer changes nothing.
-/

namespace ShardKeeper

/-- What a refresh reads: the clock, the local checkpoint and the newest marker. -/
structure RefreshTick where
  now : Int
  checkpoint : Int
  marker : Option VersionMarker
deriving DecidableEq

/-- The commit point stays, or its timestamp and its checkpoint rise together. -/
def CommitPoint.Rises (before after : CommitPoint) : Prop :=
  after = before ∨
    (before.timestamp < after.timestamp ∧ before.checkpoint < after.checkpoint)

theorem CommitPoint.Rises.refl (point : CommitPoint) : Rises point point := Or.inl rfl

theorem CommitPoint.Rises.trans {a b c : CommitPoint} (hab : Rises a b) (hbc : Rises b c) :
    Rises a c := by
  rcases hab with rfl | ⟨htime, hcheckpoint⟩
  · exact hbc
  · rcases hbc with rfl | ⟨htime', hcheckpoint'⟩
    · exact Or.inr ⟨htime, hcheckpoint⟩
    · exact Or.inr ⟨Int.lt_trans htime htime', Int.lt_trans hcheckpoint hcheckpoint'⟩

namespace CommitLedger

/-- The ledger after some refreshes. -/
def refreshAll (l : CommitLedger) (ticks : List RefreshTick) : CommitLedger :=
  ticks.foldl (fun l t => (l.refresh t.now t.checkpoint t.marker).1) l

theorem refreshAll_concat (l : CommitLedger) (ticks : List RefreshTick) (t : RefreshTick) :
    l.refreshAll (ticks ++ [t]) =
      ((l.refreshAll ticks).refresh t.now t.checkpoint t.marker).1 := by
  rw [refreshAll, List.foldl_append]
  rfl

/-- A refresh either says that the commit point changed, and then to a greater checkpoint, or says
that it did not. -/
theorem refresh_cases (l : CommitLedger) (now checkpoint : Int) (marker : Option VersionMarker) :
    ((l.refresh now checkpoint marker).2 = true ∧
      l.point.checkpoint < (l.refresh now checkpoint marker).1.point.checkpoint) ∨
    ((l.refresh now checkpoint marker).2 = false ∧
      (l.refresh now checkpoint marker).1.point = l.point) := by
  unfold refresh
  rcases (l.sample now checkpoint).1.observe_cases marker with
    ⟨m, point, -, hadvance, hobserve⟩ | ⟨-, hobserve⟩
  · obtain ⟨found, -, -, hlater, rfl⟩ := advance?_eq_some_iff.mp hadvance
    rw [hobserve]
    exact Or.inl ⟨rfl, hlater⟩
  · rw [hobserve]
    exact Or.inr ⟨rfl, rfl⟩

/-- A refresh tells of exactly the changes of the commit point. -/
theorem refresh_eq_true_iff (l : CommitLedger) (now checkpoint : Int)
    (marker : Option VersionMarker) :
    (l.refresh now checkpoint marker).2 = true ↔
      (l.refresh now checkpoint marker).1.point ≠ l.point := by
  rcases l.refresh_cases now checkpoint marker with ⟨htold, hlater⟩ | ⟨htold, hsame⟩
  · refine ⟨fun _ heq => ?_, fun _ => htold⟩
    rw [heq] at hlater
    exact Int.lt_irrefl _ hlater
  · simp [htold, hsame]

/-- Whenever the commit point changes its checkpoint rises. -/
theorem checkpoint_lt_refresh (l : CommitLedger) {now checkpoint : Int}
    {marker : Option VersionMarker}
    (hne : (l.refresh now checkpoint marker).1.point ≠ l.point) :
    l.point.checkpoint < (l.refresh now checkpoint marker).1.point.checkpoint := by
  rcases l.refresh_cases now checkpoint marker with ⟨-, hlater⟩ | ⟨-, hsame⟩
  · exact hlater
  · exact absurd hsame hne

end CommitLedger

namespace RefreshTick

/-- The refresh as a step of a course. -/
def step (t : RefreshTick) : LedgerStep := .refresh t.now t.checkpoint t.marker

/-- A positive clock that rises from after the stored time on, known checkpoints that never fall,
with unknown ones anywhere between them, and no marker dated after the clock of its refresh. -/
structure Timely (stored : CommitPoint) (ticks : List RefreshTick) : Prop where
  positive : ∀ t ∈ ticks, 0 < t.now
  later : ∀ t ∈ ticks, stored.timestamp < t.now
  clock : (ticks.map now).Pairwise (· < ·)
  rise : ((ticks.map checkpoint).filter (0 ≤ ·)).Pairwise (· ≤ ·)
  marker : ∀ t ∈ ticks, ∀ m ∈ t.marker, ∀ time ∈ m.timestamp, time ≤ t.now

theorem filterMap_sample? (ticks : List RefreshTick) :
    (ticks.map step).filterMap LedgerStep.sample? =
      ticks.map fun t => ⟨t.now, t.checkpoint⟩ := by
  rw [List.filterMap_map]
  exact congrFun List.filterMap_eq_map ticks

/-- The ledger of a course of refreshes, over any store. -/
theorem ledger_run {σ ε : Type} (save : σ → CommitPoint → σ × Except ε Unit) (c : LedgerCourse σ)
    (ticks : List RefreshTick) :
    (c.run save (ticks.map step)).ledger = c.ledger.refreshAll ticks := by
  induction ticks using List.reverseRecOn with
  | nil => rfl
  | append_singleton past t ih =>
      rw [List.map_append, List.map_singleton, LedgerCourse.run_concat,
        CommitLedger.refreshAll_concat, ← ih]
      exact congrArg Prod.fst (LedgerCourse.ledger_step_refresh save _ _ _ _)

namespace Timely

variable {stored : CommitPoint} {ticks past : List RefreshTick} {t : RefreshTick}

theorem of_front (h : Timely stored ticks) (hfront : past <+: ticks) : Timely stored past where
  positive t ht := h.positive t (hfront.subset ht)
  later t ht := h.later t (hfront.subset ht)
  clock := h.clock.sublist (hfront.map now).sublist
  rise := h.rise.sublist ((hfront.map checkpoint).sublist.filter _)
  marker t ht := h.marker t (hfront.subset ht)

/-- Timely refreshes are steps in time.  A marker without a time stands for a time that is out of
reach of a positive clock. -/
theorem inTime (h : Timely stored ticks) : InTime stored (ticks.map step) where
  clock := by
    rw [filterMap_sample?, List.map_map]
    refine List.pairwise_cons.mpr ⟨fun time htime => ?_, h.clock⟩
    obtain ⟨t, ht, rfl⟩ := List.mem_map.mp htime
    exact h.later t ht
  rise := by
    rw [filterMap_sample?, List.pairwise_map]
    have hrise := List.pairwise_map.mp (List.pairwise_filter.mp h.rise)
    exact hrise.imp fun hab ha hb => hab (by simpa using ha) (by simpa using hb)
  marker := by
    intro s hs m hm
    obtain ⟨t, ht, rfl⟩ := List.mem_map.mp hs
    refine ⟨⟨t.now, t.checkpoint⟩, rfl, ?_⟩
    rw [VersionMarker.time]
    cases htime : m.timestamp with
    | none => exact Int.le_of_lt (Int.lt_of_lt_of_le (by decide) (Int.le_of_lt (h.positive t ht)))
    | some time => exact h.marker t ht m hm time htime

variable (maxSamples maxAge : Nat)

/-- The commit point advances to a later time in every timely refresh that it advances in. -/
theorem timestamp_lt (h : Timely stored (past ++ [t])) {before : CommitLedger}
    (hbefore : before = (CommitLedger.opened (.empty maxSamples maxAge) stored).refreshAll past)
    (hne : (before.refresh t.now t.checkpoint t.marker).1.point ≠ before.point) :
    before.point.timestamp < (before.refresh t.now t.checkpoint t.marker).1.point.timestamp := by
  -- the refreshes as a course, over a store that nothing is written to
  let save : Unit → CommitPoint → Unit × Except Unit Unit := fun store _ => (store, .ok ())
  have hin := h.inTime
  rw [List.map_append, List.map_singleton] at hin
  have hlater := hin.advancesLater save maxSamples maxAge ()
  rw [← List.map_singleton, ← List.map_append, LedgerCourse.AdvancesLater, ledger_run, ledger_run,
    CommitLedger.refreshAll_concat] at hlater
  subst hbefore
  exact hlater hne

/-- **One refresh**: the commit point changes exactly if the refresh says so, and it rises. -/
theorem rises_step (h : Timely stored (past ++ [t])) {before : CommitLedger}
    (hbefore : before = (CommitLedger.opened (.empty maxSamples maxAge) stored).refreshAll past) :
    before.point.Rises (before.refresh t.now t.checkpoint t.marker).1.point := by
  by_cases hsame : (before.refresh t.now t.checkpoint t.marker).1.point = before.point
  · exact Or.inl hsame
  · exact Or.inr ⟨h.timestamp_lt maxSamples maxAge hbefore hsame,
      before.checkpoint_lt_refresh hsame⟩

/-- **Many refreshes**: the commit point rises. -/
theorem rises_run {middle : List RefreshTick} (h : Timely stored (past ++ middle)) :
    let ledger := (CommitLedger.opened (.empty maxSamples maxAge) stored).refreshAll
    (ledger past).point.Rises (ledger (past ++ middle)).point := by
  intro ledger
  induction middle using List.reverseRecOn with
  | nil =>
      rw [List.append_nil]
      exact .refl _
  | append_singleton middle t ih =>
      rw [← List.append_assoc] at h ⊢
      rw [show ledger (past ++ middle ++ [t]) = _ from CommitLedger.refreshAll_concat ..]
      exact (ih (h.of_front (List.prefix_append ..))).trans (h.rises_step maxSamples maxAge rfl)

end Timely

end RefreshTick

/-- **Timely refreshes raise the timestamp of the commit point together with its checkpoint**, with
every change that a refresh tells of, and from any refresh to any later one. -/
theorem CommitLedger.advance_raises_time (maxSamples maxAge : Nat) (stored : CommitPoint)
    (ticks : List RefreshTick) (h : RefreshTick.Timely stored ticks) :
    let ledger := (CommitLedger.opened (.empty maxSamples maxAge) stored).refreshAll
    (∀ past t rest, ticks = past ++ t :: rest →
      let before := (ledger past).point
      let answer := (ledger past).refresh t.now t.checkpoint t.marker
      (answer.2 = true →
        before.timestamp < answer.1.point.timestamp ∧
          before.checkpoint < answer.1.point.checkpoint) ∧
      (answer.2 = false → answer.1.point = before)) ∧
    ∀ past middle rest, ticks = past ++ middle ++ rest →
      (ledger past).point.Rises (ledger (past ++ middle)).point := by
  intro ledger
  refine ⟨?_, ?_⟩
  · intro past t rest hticks before answer
    have hfront : past ++ [t] <+: ticks := ⟨rest, by rw [hticks, List.append_cons past t rest]⟩
    have htold := (ledger past).refresh_eq_true_iff t.now t.checkpoint t.marker
    refine ⟨fun htrue => ?_, fun hfalse => ?_⟩
    · have hrises := (h.of_front hfront).rises_step maxSamples maxAge rfl
      exact hrises.resolve_left (htold.mp htrue)
    · by_contra hne
      exact Bool.false_ne_true (hfalse.symm.trans (htold.mpr hne))
  · intro past middle rest hticks
    have hfront : past ++ middle <+: ticks := ⟨rest, hticks.symm⟩
    exact (h.of_front hfront).rises_run maxSamples maxAge

/-- Unknown readings, a marker without a time, one that is older than a version before it, and
bounds that drop samples. -/
theorem CommitLedger.advance_raises_time_of_mixed_markers :
    let ticks : List RefreshTick :=
      [⟨1000, -1, none⟩, ⟨2000, 7, some ⟨9, some 1500⟩⟩, ⟨3000, 9, some ⟨2, some 2500⟩⟩,
        ⟨4000, -1, some ⟨4, none⟩⟩, ⟨5000, 12, some ⟨3, some 3500⟩⟩]
    let ledger := (CommitLedger.opened (.empty 3 1500) ⟨500, 1, 3⟩).refreshAll
    RefreshTick.Timely ⟨500, 1, 3⟩ ticks ∧
      (ledger (ticks.take 3)).point = ⟨2500, 2, 7⟩ ∧ (ledger ticks).point = ⟨3500, 3, 9⟩ ∧
      (ledger (ticks.take 3)).point.Rises (ledger ticks).point := by
  intro ticks ledger
  have h : RefreshTick.Timely ⟨500, 1, 3⟩ ticks :=
    ⟨by decide, by decide, by decide, by decide, by decide⟩
  have hrises := (advance_raises_time 3 1500 ⟨500, 1, 3⟩ ticks h).2 (ticks.take 3) (ticks.drop 3) []
    rfl
  exact ⟨h, by decide, by decide, hrises⟩

end ShardKeeper
