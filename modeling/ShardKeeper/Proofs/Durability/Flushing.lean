import ShardKeeper.Durability.MemoryStore
import ShardKeeper.Proofs.Durability.Settled

/-!
# Flushing after every refresh

A shard is refreshed and then flushed, again and again, over a store that never
fails.  A refresh advances the commit point by its *checkpoint*, but a flush
compares *timestamps*.  This file asks when the two agree, so that no advance is
left behind in memory.

## Main definitions

* `SteadyStore` — a store that never fails and holds what was stored last.
* `FlushTick` — a refresh and the flush that follows it.
* `SteadyStore.AdvancesInTime` — every advance raises the timestamp.

## Main results

`flushed_iff_advances_in_time`: the store keeps up with the commit point exactly
as long as every advance raises the timestamp, and without markers from the
future every advance does.  With such markers it need not: a marker that is
ahead of the clock may be found again after a later sample, and then leads to a
greater checkpoint at the same timestamp (`advance_left_unflushed`).
-/

namespace ShardKeeper

/-- A store that never fails and holds what was stored last. -/
structure SteadyStore (σ ε : Type) where
  load : σ → Except ε CommitPoint
  save : σ → CommitPoint → σ × Except ε Unit
  save_ok (store : σ) (point : CommitPoint) : (save store point).2 = .ok ()
  load_save (store : σ) (point : CommitPoint) : load (save store point).1 = .ok point

namespace MemoryStore

/-- No failures are to come. -/
def Steady (s : MemoryStore) : Prop := s.failingStores = 0 ∧ s.failingLoads = false

theorem Steady.store_eq {s : MemoryStore} (h : s.Steady) (point : CommitPoint) :
    s.store point = ({ s with point, writes := s.writes + 1 }, .ok ()) := by
  rw [MemoryStore.store, h.1]

theorem Steady.store {s : MemoryStore} (h : s.Steady) (point : CommitPoint) :
    (s.store point).1.Steady := by
  rw [h.store_eq]
  exact h

/-- The stores in memory that have no failures to come. -/
def steady : SteadyStore { s : MemoryStore // s.Steady } Unit where
  load s := s.1.load
  save s point := (⟨(s.1.store point).1, s.2.store point⟩, (s.1.store point).2)
  save_ok s point := by
    show (s.1.store point).2 = .ok ()
    rw [s.2.store_eq]
  load_save s point := by
    show (s.1.store point).1.load = .ok point
    rw [load, (s.2.store point).2, s.2.store_eq]
    rfl

end MemoryStore

/-- A refresh that is followed by a flush. -/
structure FlushTick where
  now : Int
  checkpoint : Int
  marker : Option VersionMarker
deriving DecidableEq

namespace FlushTick

def refresh (t : FlushTick) : LedgerStep := .refresh t.now t.checkpoint t.marker

def steps (t : FlushTick) : List LedgerStep := [t.refresh, .flush false]

/-- A rising clock that starts after the stored time, known checkpoints that never fall, and markers
with positive times. -/
structure Regular (stored : CommitPoint) (ticks : List FlushTick) : Prop where
  clock : (stored.timestamp :: ticks.map FlushTick.now).Pairwise (· < ·)
  known : ∀ t ∈ ticks, 0 ≤ t.checkpoint
  rise : (ticks.map FlushTick.checkpoint).Pairwise (· ≤ ·)
  dated : ∀ t ∈ ticks, ∀ m ∈ t.marker, 0 < m.time

theorem samples_steps (ticks : List FlushTick) :
    (ticks.flatMap FlushTick.steps).filterMap LedgerStep.sample? =
      ticks.map fun t => ⟨t.now, t.checkpoint⟩ := by
  induction ticks with
  | nil => rfl
  | cons t ticks ih =>
      rw [List.flatMap_cons, List.filterMap_append, ih]
      rfl

/-- Regular ticks without markers from the future are steps in time. -/
theorem Regular.inTime {stored : CommitPoint} {ticks : List FlushTick} (h : Regular stored ticks)
    (hpast : ∀ t ∈ ticks, ∀ m ∈ t.marker, m.time ≤ t.now) :
    InTime stored (ticks.flatMap FlushTick.steps) where
  clock := by
    rw [samples_steps, List.map_map]
    exact h.clock
  rise := by
    rw [samples_steps, List.pairwise_map]
    exact (List.pairwise_map.mp h.rise).imp fun hle _ _ => hle
  marker := by
    intro s hs m hm
    obtain ⟨t, ht, hst⟩ := List.mem_flatMap.mp hs
    rcases List.mem_pair.mp hst with rfl | rfl
    · exact ⟨⟨t.now, t.checkpoint⟩, rfl, hpast t ht m hm⟩
    · cases hm

end FlushTick

/-- A known commit point that the store takes is stored. -/
theorem CommitLedger.persist_of_saved {σ ε : Type} (l : CommitLedger) {store : σ}
    {save : σ → CommitPoint → σ × Except ε Unit} (hknown : 0 ≤ l.point.checkpoint)
    (hok : (save store l.point).2 = .ok ()) :
    l.persist store save = (l.stored, (save store l.point).1, .ok true) := by
  rw [persist, recordToStore?, if_neg (Int.not_lt.mpr hknown)]
  dsimp only
  generalize save store l.point = saved at hok ⊢
  obtain ⟨after, result⟩ := saved
  cases hok
  rfl

theorem CommitLedger.needsFlush_iff (l : CommitLedger) :
    l.needsFlush = true ↔ 0 < l.point.timestamp ∧ l.storedTimestamp < l.point.timestamp := by
  simp [needsFlush]

namespace SteadyStore

variable {σ ε : Type} (S : SteadyStore σ ε)

/-- The store holds the checkpoint of the commit point. -/
def HoldsCheckpoint (c : LedgerCourse σ) : Prop :=
  ∃ record, S.load c.store = .ok record ∧ record.checkpoint = c.ledger.point.checkpoint

/-- The commit point is newer than the stored one. -/
def IsBehind (c : LedgerCourse σ) : Prop :=
  ∃ record, S.load c.store = .ok record ∧ record.checkpoint < c.ledger.point.checkpoint

/-- The commit point of the shard when it is closed, which flushes it, and opened again. -/
def reopened (maxSamples maxAge : Nat) (c : LedgerCourse σ) : Except ε CommitPoint :=
  (S.load (c.step S.save (.flush false)).1.store).map fun record =>
    (CommitLedger.opened (.empty maxSamples maxAge) record).point

/-- The store holds the commit point, and the ledger has taken note of it. -/
structure UpToDate (c : LedgerCourse σ) : Prop where
  record : S.load c.store = .ok c.ledger.point
  mark : c.ledger.storedTimestamp = c.ledger.point.timestamp

variable {S} {stored : CommitPoint} {c : LedgerCourse σ}

/-! ### One flush -/

theorem step_flush_of_not_needsFlush (hno : c.ledger.needsFlush = false) :
    (c.step S.save (.flush false)).1 = c := by
  simp [LedgerCourse.step, LedgerCourse.settle, CommitLedger.flush, hno]

theorem upToDate_flush (hneeds : c.ledger.needsFlush = true)
    (hknown : 0 ≤ c.ledger.point.checkpoint) :
    S.UpToDate (c.step S.save (.flush false)).1 := by
  have hpersist := c.ledger.persist_of_saved hknown (S.save_ok c.store c.ledger.point)
  rw [LedgerCourse.step, CommitLedger.flush, if_neg (by simp [hneeds]), hpersist]
  exact ⟨S.load_save .., rfl⟩

/-! ### One tick -/

/-- A refresh leaves the store alone, and the commit point either stays or becomes a known and newer
one, with the time of the marker. -/
theorem refresh_cases (hc : LedgerCourse.Sound stored c) (t : FlushTick)
    (hdated : ∀ m ∈ t.marker, 0 < m.time) :
    (c.step S.save t.refresh).1.store = c.store ∧
      (c.step S.save t.refresh).1.ledger.storedTimestamp = c.ledger.storedTimestamp ∧
      ((c.step S.save t.refresh).1.ledger.point = c.ledger.point ∨
        0 < (c.step S.save t.refresh).1.ledger.point.timestamp ∧
          0 ≤ (c.step S.save t.refresh).1.ledger.point.checkpoint ∧
          c.ledger.point.checkpoint < (c.step S.save t.refresh).1.ledger.point.checkpoint) := by
  refine ⟨rfl, LedgerCourse.storedTimestamp_look _ _, ?_⟩
  rcases hc.step_cases S.save t.refresh with ⟨m, r, hm, -, -, hknown, hlater, hpoint⟩ | ⟨hpoint, -⟩
  · rw [hpoint]
    exact Or.inr ⟨hdated m hm, hknown, hlater⟩
  · exact Or.inl hpoint

namespace UpToDate

/-- On an up-to-date store a flush has nothing to do. -/
theorem not_needsFlush (h : S.UpToDate c) : c.ledger.needsFlush = false := by
  rw [Bool.eq_false_iff, Ne, CommitLedger.needsFlush_iff, h.mark]
  exact fun hlt => Int.lt_irrefl _ hlt.2

theorem not_isBehind (h : S.UpToDate c) : ¬ S.IsBehind c := by
  rintro ⟨record, hrecord, hlt⟩
  obtain rfl := Except.ok.inj (h.record.symm.trans hrecord)
  exact Int.lt_irrefl _ hlt

theorem holdsCheckpoint (h : S.UpToDate c) : S.HoldsCheckpoint c := ⟨_, h.record, rfl⟩

/-- Closing and opening again brings the same commit point back. -/
theorem reopened (h : S.UpToDate c) (maxSamples maxAge : Nat) :
    S.reopened maxSamples maxAge c = .ok c.ledger.point := by
  rw [SteadyStore.reopened, step_flush_of_not_needsFlush h.not_needsFlush, h.record]
  rfl

/-- **One tick.**  If the refresh advances the commit point to a later time, or not at all, the
flush stores what there is to store.  Otherwise it stores nothing, and the store is left behind. -/
theorem tick (h : S.UpToDate c) (hc : LedgerCourse.Sound stored c) (t : FlushTick)
    (hdated : ∀ m ∈ t.marker, 0 < m.time) :
    let d := (c.step S.save t.refresh).1
    let e := (d.step S.save (.flush false)).1
    c.AdvancesLater d ∧ S.UpToDate e ∧ (d.ledger.needsFlush = true ↔ S.IsBehind d) ∨
      ¬ c.AdvancesLater d ∧ ¬ S.HoldsCheckpoint e := by
  intro d e
  obtain ⟨hstore, hmark, hcases⟩ := refresh_cases (S := S) hc t hdated
  have hload : S.load d.store = .ok c.ledger.point := by
    rw [show d.store = c.store from hstore, h.record]
  have hneeds : d.ledger.needsFlush = true ↔ 0 < d.ledger.point.timestamp ∧
      c.ledger.point.timestamp < d.ledger.point.timestamp := by
    rw [CommitLedger.needsFlush_iff, show d.ledger.storedTimestamp = _ from hmark, h.mark]
  by_cases hlater : c.AdvancesLater d
  · refine Or.inl ⟨hlater, ?_⟩
    rcases hcases with hsame | ⟨hpositive, hknown, hnewer⟩
    · -- nothing has changed, so there is nothing to flush
      have hd : S.UpToDate d := by
        refine ⟨?_, ?_⟩
        · rw [hload, show d.ledger.point = _ from hsame]
        · rw [show d.ledger.storedTimestamp = _ from hmark, h.mark,
            show d.ledger.point = _ from hsame]
      have he : e = d := step_flush_of_not_needsFlush hd.not_needsFlush
      rw [he, hd.not_needsFlush]
      exact ⟨hd, by simp [hd.not_isBehind]⟩
    · have hne : d.ledger.point ≠ c.ledger.point := by
        intro heq
        rw [show (c.step S.save t.refresh).1.ledger.point = _ from heq] at hnewer
        exact Int.lt_irrefl _ hnewer
      have htrue := hneeds.mpr ⟨hpositive, hlater hne⟩
      exact ⟨upToDate_flush htrue hknown, fun _ => ⟨_, hload, hnewer⟩, fun _ => htrue⟩
  · obtain ⟨hne, hnot⟩ := Classical.not_imp.mp hlater
    refine Or.inr ⟨hlater, ?_⟩
    -- the timestamp has not risen, so the flush is not called for
    have he : e = d := step_flush_of_not_needsFlush <| by
      rw [Bool.eq_false_iff, Ne, hneeds]
      exact fun htrue => hnot htrue.2
    rw [he]
    rintro ⟨record, hrecord, heq⟩
    obtain rfl := Except.ok.inj (hload.symm.trans hrecord)
    rcases hcases with hsame | ⟨-, -, hnewer⟩
    · exact hne hsame
    · exact absurd heq (Int.ne_of_lt hnewer)

end UpToDate

/-! ### Tick after tick -/

variable (S) (maxSamples maxAge : Nat) (stored : CommitPoint) (store : σ)

/-- The course of a ledger opened on `stored` after some ticks. -/
def after (ticks : List FlushTick) : LedgerCourse σ :=
  (LedgerCourse.begin maxSamples maxAge stored store).run S.save (ticks.flatMap FlushTick.steps)

/-- Every advance of the commit point in these ticks raises its timestamp. -/
def AdvancesInTime (ticks : List FlushTick) : Prop :=
  ∀ past t, past ++ [t] <+: ticks →
    (S.after maxSamples maxAge stored store past).AdvancesLater
      (S.after maxSamples maxAge stored store (past ++ [t]))

variable {S maxSamples maxAge stored store}

theorem after_concat (past : List FlushTick) (t : FlushTick) :
    S.after maxSamples maxAge stored store (past ++ [t]) =
      ((((S.after maxSamples maxAge stored store past).step S.save t.refresh).1).step S.save
        (.flush false)).1 := by
  rw [after, List.flatMap_append, LedgerCourse.run_append]
  rfl

theorem sound_after (past : List FlushTick) :
    LedgerCourse.Sound stored (S.after maxSamples maxAge stored store past) :=
  (LedgerCourse.Sound.begin maxSamples maxAge stored store).run S.save _

theorem upToDate_begin (hstore : S.load store = .ok stored) :
    S.UpToDate (S.after maxSamples maxAge stored store []) :=
  ⟨hstore, rfl⟩

/-- The flush of a tick does not move the commit point. -/
theorem point_after_concat (past : List FlushTick) (t : FlushTick) :
    (S.after maxSamples maxAge stored store (past ++ [t])).ledger.point =
      ((S.after maxSamples maxAge stored store past).step S.save t.refresh).1.ledger.point := by
  rw [after_concat]
  exact CommitLedger.point_flush ..

/-- `UpToDate.tick` in a run of ticks. -/
theorem tick_after {past : List FlushTick} {t : FlushTick}
    (h : S.UpToDate (S.after maxSamples maxAge stored store past))
    (hdated : ∀ m ∈ t.marker, 0 < m.time) :
    let c := S.after maxSamples maxAge stored store past
    let d := (c.step S.save t.refresh).1
    let e := S.after maxSamples maxAge stored store (past ++ [t])
    c.AdvancesLater e ∧ S.UpToDate e ∧ (d.ledger.needsFlush = true ↔ S.IsBehind d) ∨
      ¬ c.AdvancesLater e ∧ ¬ S.HoldsCheckpoint e := by
  intro c d e
  rw [LedgerCourse.AdvancesLater, show e.ledger.point = _ from point_after_concat past t,
    show e = _ from after_concat past t]
  exact h.tick (sound_after past) t hdated

variable {ticks : List FlushTick}

/-- The store stays up to date as long as every tick leaves it holding the checkpoint, or does not
advance the commit point without raising its timestamp. -/
theorem upToDate_after (hstore : S.load store = .ok stored)
    (hdated : ∀ t ∈ ticks, ∀ m ∈ t.marker, 0 < m.time)
    (htick : ∀ past t, past ++ [t] <+: ticks →
      S.HoldsCheckpoint (S.after maxSamples maxAge stored store (past ++ [t])) ∨
        (S.after maxSamples maxAge stored store past).AdvancesLater
          (S.after maxSamples maxAge stored store (past ++ [t]))) :
    ∀ past, past <+: ticks → S.UpToDate (S.after maxSamples maxAge stored store past) := by
  intro past
  induction past using List.reverseRecOn with
  | nil => exact fun _ => upToDate_begin hstore
  | append_singleton past t ih =>
      intro hpast
      have hpositive := hdated t (hpast.subset (by simp))
      rcases tick_after (ih ((List.prefix_append past [t]).trans hpast)) hpositive with
        ⟨-, hup, -⟩ | ⟨hlate, hnot⟩
      · exact hup
      · rcases htick past t hpast with hholds | hlater
        · exact absurd hholds hnot
        · exact absurd hlater hlate

theorem advancesInTime_of_regular (hticks : FlushTick.Regular stored ticks)
    (hpast : ∀ t ∈ ticks, ∀ m ∈ t.marker, m.time ≤ t.now) :
    S.AdvancesInTime maxSamples maxAge stored store ticks := by
  intro past t hprefix
  have hsteps : past.flatMap FlushTick.steps ++ [t.refresh] <+: ticks.flatMap FlushTick.steps := by
    obtain ⟨rest, rfl⟩ := hprefix
    exact ⟨.flush false :: rest.flatMap FlushTick.steps, by simp [FlushTick.steps]⟩
  have hlater :=
    ((hticks.inTime hpast).of_front hsteps).advancesLater S.save maxSamples maxAge store
  rw [LedgerCourse.run_concat] at hlater
  rw [LedgerCourse.AdvancesLater, point_after_concat]
  exact hlater

/-- **The store keeps up exactly as long as every advance raises the timestamp.**  For regular ticks
over a steady store:

* after every tick the store holds the checkpoint of the commit point, exactly if every advance
  raises the timestamp;
* in that case a flush is called for, between a refresh and its flush and after it, exactly if the
  commit point is newer than the stored one, and closing and opening the shard after any tick brings
  its commit point back;
* that is the case if no marker is dated after the clock of the tick that looks at it. -/
theorem flushed_iff_advances_in_time (S : SteadyStore σ ε) (maxSamples maxAge : Nat)
    (stored : CommitPoint) (store : σ) (hstore : S.load store = .ok stored)
    (ticks : List FlushTick) (hticks : FlushTick.Regular stored ticks) :
    ((∀ past, past <+: ticks → S.HoldsCheckpoint (S.after maxSamples maxAge stored store past)) ↔
      S.AdvancesInTime maxSamples maxAge stored store ticks) ∧
    (S.AdvancesInTime maxSamples maxAge stored store ticks → ∀ past, past <+: ticks →
      let c := S.after maxSamples maxAge stored store past
      (c.ledger.needsFlush = true ↔ S.IsBehind c) ∧
      S.reopened maxSamples maxAge c = .ok c.ledger.point ∧
      ∀ t, past ++ [t] <+: ticks →
        let d := (c.step S.save t.refresh).1
        (d.ledger.needsFlush = true ↔ S.IsBehind d)) ∧
    ((∀ t ∈ ticks, ∀ m ∈ t.marker, m.time ≤ t.now) →
      S.AdvancesInTime maxSamples maxAge stored store ticks) := by
  have hdated := hticks.dated
  refine ⟨⟨?_, ?_⟩, ?_, advancesInTime_of_regular hticks⟩
  · intro hholds past t hpast
    have hup := upToDate_after hstore hdated (fun past t h => Or.inl (hholds _ h)) past
      ((List.prefix_append past [t]).trans hpast)
    rcases tick_after hup (hdated t (hpast.subset (by simp))) with ⟨hlater, -⟩ | ⟨-, hnot⟩
    · exact hlater
    · exact absurd (hholds _ hpast) hnot
  · intro htimes past hpast
    exact (upToDate_after hstore hdated (fun past t h => Or.inr (htimes past t h)) past
      hpast).holdsCheckpoint
  · intro htimes past hpast c
    have hup := upToDate_after hstore hdated (fun past t h => Or.inr (htimes past t h)) past hpast
    refine ⟨?_, hup.reopened maxSamples maxAge, ?_⟩
    · rw [hup.not_needsFlush]
      simpa using hup.not_isBehind
    · intro t ht
      rcases tick_after hup (hdated t (ht.subset (by simp))) with ⟨-, -, hneeds⟩ | ⟨hlate, -⟩
      · exact hneeds
      · exact absurd (htimes past t ht) hlate

/-- Three ticks, the second and third of which advance the commit point. -/
theorem flushed_after_three_ticks :
    let ticks : List FlushTick :=
      [⟨1000, 5, none⟩, ⟨2000, 9, some ⟨1, some 1500⟩⟩, ⟨3000, 9, some ⟨2, some 3000⟩⟩]
    let store := ⟨.holding .unknown, rfl, rfl⟩
    let c := MemoryStore.steady.after 8 60000 .unknown store ticks
    MemoryStore.steady.load store = .ok .unknown ∧ FlushTick.Regular .unknown ticks ∧
      MemoryStore.steady.AdvancesInTime 8 60000 .unknown store ticks ∧
      MemoryStore.steady.reopened 8 60000 c = .ok ⟨3000, 2, 9⟩ := by
  intro ticks store c
  have hticks : FlushTick.Regular .unknown ticks :=
    ⟨by decide, by decide, by decide, by decide⟩
  have hmain := flushed_iff_advances_in_time MemoryStore.steady 8 60000 .unknown store rfl ticks
    hticks
  have htimes := hmain.2.2 (by decide)
  refine ⟨rfl, hticks, htimes, ?_⟩
  rw [(hmain.2.1 htimes ticks List.prefix_rfl).2.1]
  decide

/-- A marker dated ahead of the clock is found again after a later sample: the commit point advances
at the same timestamp, nothing is flushed, and closing and opening the shard loses the advance. -/
theorem advance_left_unflushed :
    let ticks : List FlushTick :=
      [⟨1000, 5, some ⟨1, some 60000⟩⟩, ⟨2000, 9, some ⟨1, some 60000⟩⟩]
    let c := MemoryStore.steady.after 8 60000 .unknown ⟨.holding .unknown, rfl, rfl⟩ ticks
    FlushTick.Regular .unknown ticks ∧ c.ledger.point = ⟨60000, 1, 9⟩ ∧
      MemoryStore.steady.load c.store = .ok ⟨60000, 1, 5⟩ ∧ ¬ MemoryStore.steady.HoldsCheckpoint c ∧
      c.ledger.needsFlush = false ∧ MemoryStore.steady.IsBehind c ∧
      MemoryStore.steady.reopened 8 60000 c = .ok ⟨60000, 1, 5⟩ := by
  intro ticks c
  refine ⟨⟨by decide, by decide, by decide, by decide⟩, by decide, rfl, ?_, by decide, ?_, rfl⟩
  · rintro ⟨record, hrecord, heq⟩
    cases hrecord
    exact absurd heq (by decide)
  · exact ⟨_, rfl, by decide⟩

end SteadyStore

end ShardKeeper
