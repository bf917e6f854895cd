import ShardKeeper.Durability.Ledger
import ShardKeeper.Proofs.Durability.Lookup

/-!
# The course of a commit ledger

A ledger lives from its opening through samples, looks at version markers and
attempts to store its commit point, in any order.  This file runs it through
such a course and writes down on the way what the ledger itself forgets: every
sample that was ever taken in, and every checkpoint that a marker led to.

## Main definitions

* `LedgerStep` — something done with a ledger.
* `LedgerCourse` — a ledger and its store, with the record of what happened.
* `LedgerCourse.step`, `LedgerCourse.run` — a course step by step.
* `LedgerCourse.Sound` — the invariant that ties the ledger to the record.

## Design notes

The record never influences the ledger: `ledger` is computed by
`CommitLedger.sample`, `observe`, `refresh`, `persist` and `flush` alone.  The
store is arbitrary and so is the function that saves to it, so every pattern of
successes and failures is a course.
-/

namespace ShardKeeper

/-- The time a marker stands for; `-1` when it has none. -/
def VersionMarker.time (marker : VersionMarker) : Int := marker.timestamp.getD (-1)

/-- The sample that a stored commit point seeds a history with: none unless its time and its
checkpoint are known. -/
def CommitPoint.seed (point : CommitPoint) : List Sample :=
  if 0 ≤ point.timestamp ∧ 0 ≤ point.checkpoint then [⟨point.timestamp, point.checkpoint⟩] else []

/-- Something done with a ledger. -/
inductive LedgerStep where
  | sample (now checkpoint : Int)
  | observe (marker : Option VersionMarker)
  | refresh (now checkpoint : Int) (marker : Option VersionMarker)
  /-- An attempt to store the commit point, whatever is stored. -/
  | persist
  /-- An attempt to store the commit point if that is called for. -/
  | flush (force : Bool)
deriving DecidableEq

namespace LedgerStep

/-- The sample that a step offers. -/
def sample? : LedgerStep → Option Sample
  | .sample now checkpoint | .refresh now checkpoint _ => some ⟨now, checkpoint⟩
  | .observe _ | .persist | .flush _ => none

/-- The marker that a step looks at. -/
def marker? : LedgerStep → Option VersionMarker
  | .observe marker | .refresh _ _ marker => marker
  | .sample _ _ | .persist | .flush _ => none

end LedgerStep

/-! ### What the operations of a ledger do -/

namespace CommitLedger

variable {σ ε : Type}

/-- The checkpoint that a marker leads to, whether or not it is later than the known one. -/
def lookup? (l : CommitLedger) (marker : Option VersionMarker) : Option Int :=
  marker.bind fun m => l.history.at? m.time

/-- **When a marker advances the commit point, and to what.** -/
theorem advance?_eq_some_iff {l : CommitLedger} {marker : VersionMarker} {point : CommitPoint} :
    l.advance? marker = some point ↔
      ∃ checkpoint, l.history.at? marker.time = some checkpoint ∧ 0 ≤ checkpoint ∧
        l.point.checkpoint < checkpoint ∧ point = ⟨marker.time, marker.version, checkpoint⟩ := by
  rw [advance?, ← VersionMarker.time]
  cases hat : l.history.at? marker.time with
  | none => simp
  | some checkpoint =>
      simp only [Bool.and_eq_true, decide_eq_true_eq, Option.ite_none_right_eq_some,
        Option.some.injEq, exists_eq_left', and_assoc]
      exact ⟨fun ⟨hknown, hlater, heq⟩ => ⟨hknown, hlater, heq.symm⟩,
        fun ⟨hknown, hlater, heq⟩ => ⟨hknown, hlater, heq.symm⟩⟩

/-- A look at a marker either advances the commit point and says so, or changes nothing. -/
theorem observe_cases (l : CommitLedger) (marker : Option VersionMarker) :
    (∃ m point, marker = some m ∧ l.advance? m = some point ∧
      l.observe marker = ({ l with point }, true)) ∨
    (marker.bind l.advance? = none ∧ l.observe marker = (l, false)) := by
  rw [observe]
  cases hbind : marker.bind l.advance? with
  | none => exact Or.inr ⟨rfl, rfl⟩
  | some point =>
      obtain ⟨m, hm, hpoint⟩ := Option.bind_eq_some_iff.mp hbind
      exact Or.inl ⟨m, point, hm, hpoint, rfl⟩

/-- A look raises the checkpoint to the one it led to, if that is known and greater. -/
theorem checkpoint_observe (l : CommitLedger) (marker : Option VersionMarker) :
    (l.observe marker).1.point.checkpoint =
      ((l.lookup? marker).toList.filter (0 ≤ ·)).foldl max l.point.checkpoint := by
  rcases l.observe_cases marker with ⟨m, point, rfl, hadvance, hobserve⟩ | ⟨hnone, hobserve⟩
  · obtain ⟨checkpoint, hat, hknown, hlater, rfl⟩ := advance?_eq_some_iff.mp hadvance
    simp [hobserve, lookup?, hat, hknown, Int.max_eq_right (Int.le_of_lt hlater)]
  · rw [hobserve]
    cases hat : l.lookup? marker with
    | none => rfl
    | some checkpoint =>
        obtain ⟨m, rfl, hm⟩ := Option.bind_eq_some_iff.mp hat
        by_cases hknown : 0 ≤ checkpoint
        · have hle : checkpoint ≤ l.point.checkpoint := by
            by_contra hlater
            have hadvance := advance?_eq_some_iff.mpr ⟨checkpoint, hm, hknown, by omega, rfl⟩
            rw [Option.bind_some, hadvance] at hnone
            cases hnone
          simp [hknown, Int.max_eq_left hle]
        · simp [hknown]

@[simp] theorem history_persist (l : CommitLedger) (store : σ)
    (save : σ → CommitPoint → σ × Except ε Unit) :
    (l.persist store save).1.history = l.history := by
  unfold persist
  split
  · rfl
  · split <;> rfl

@[simp] theorem point_persist (l : CommitLedger) (store : σ)
    (save : σ → CommitPoint → σ × Except ε Unit) :
    (l.persist store save).1.point = l.point := by
  unfold persist
  split
  · rfl
  · split <;> rfl

@[simp] theorem history_flush (l : CommitLedger) (force : Bool) (store : σ)
    (save : σ → CommitPoint → σ × Except ε Unit) :
    (l.flush force store save).1.history = l.history := by
  unfold flush
  split
  · rfl
  · exact l.history_persist store save

@[simp] theorem point_flush (l : CommitLedger) (force : Bool) (store : σ)
    (save : σ → CommitPoint → σ × Except ε Unit) :
    (l.flush force store save).1.point = l.point := by
  unfold flush
  split
  · rfl
  · exact l.point_persist store save

/-- A ledger opened on an empty history holds the seed of its stored point and nothing else. -/
theorem samples_opened (maxSamples maxAge : Nat) (stored : CommitPoint) :
    (opened (.empty maxSamples maxAge) stored).history.samples = stored.seed := by
  have hroom : 1 ≤ max 1 maxSamples := Nat.le_max_left ..
  rw [opened, CommitPoint.seed]
  by_cases hknown : 0 ≤ stored.timestamp ∧ 0 ≤ stored.checkpoint
  · rw [if_pos hknown, if_pos (by simpa using hknown),
      CheckpointHistory.add_of_accepts (by simp [CheckpointHistory.accepts_iff,
        CheckpointHistory.newest?, CheckpointHistory.empty])]
    simp [CheckpointHistory.trim, CheckpointHistory.empty, CheckpointHistory.keepLast,
      CheckpointHistory.dropAged, Nat.sub_eq_zero_of_le hroom]
  · rw [if_neg hknown, if_neg (by simpa using hknown)]
    rfl

theorem maxSamples_opened (history : CheckpointHistory) (stored : CommitPoint) :
    (opened history stored).history.maxSamples = history.maxSamples := by
  simp only [opened, CheckpointHistory.add]
  split
  · split <;> rfl
  · rfl

end CommitLedger

/-! ### Courses -/

/-- A ledger and its store, and what has happened to the ledger so far. -/
structure LedgerCourse (σ : Type) where
  ledger : CommitLedger
  store : σ
  /-- Every sample taken in, oldest first, whether or not the history still holds it. -/
  accepted : List Sample
  /-- Every checkpoint that a marker has led to, in order. -/
  lookups : List Int

namespace LedgerCourse

variable {σ ε : Type} (save : σ → CommitPoint → σ × Except ε Unit)

/-- A ledger just opened. -/
def begin (maxSamples maxAge : Nat) (stored : CommitPoint) (store : σ) : LedgerCourse σ where
  ledger := .opened (.empty maxSamples maxAge) stored
  store := store
  accepted := stored.seed
  lookups := []

/-- The course after a sample was offered, and whether it was taken in. -/
def take (c : LedgerCourse σ) (s : Sample) : LedgerCourse σ × Bool :=
  let (ledger, taken) := c.ledger.sample s.timestamp s.checkpoint
  ({ c with ledger, accepted := if taken then c.accepted ++ [s] else c.accepted }, taken)

/-- The course after a look at a marker, and whether the commit point changed. -/
def look (c : LedgerCourse σ) (marker : Option VersionMarker) : LedgerCourse σ × Bool :=
  let (ledger, changed) := c.ledger.observe marker
  ({ c with ledger, lookups := c.lookups ++ (c.ledger.lookup? marker).toList }, changed)

/-- The course after an operation of the ledger on its store, which tells whether anything was
stored. -/
def settle (c : LedgerCourse σ) (outcome : CommitLedger × σ × Except ε Bool) :
    LedgerCourse σ × Bool :=
  ({ c with ledger := outcome.1, store := outcome.2.1 }, outcome.2.2.toOption.getD false)

/-- The course after a step, and what the step answers. -/
def step (c : LedgerCourse σ) : LedgerStep → LedgerCourse σ × Bool
  | .sample now checkpoint => c.take ⟨now, checkpoint⟩
  | .observe marker => c.look marker
  | .refresh now checkpoint marker => (c.take ⟨now, checkpoint⟩).1.look marker
  | .persist => c.settle (c.ledger.persist c.store save)
  | .flush force => c.settle (c.ledger.flush force c.store save)

/-- The course after some steps. -/
def run (c : LedgerCourse σ) (steps : List LedgerStep) : LedgerCourse σ :=
  steps.foldl (fun c s => (c.step save s).1) c

@[simp] theorem run_nil (c : LedgerCourse σ) : c.run save [] = c := rfl

@[simp] theorem run_cons (c : LedgerCourse σ) (s : LedgerStep) (steps : List LedgerStep) :
    c.run save (s :: steps) = (c.step save s).1.run save steps := rfl

theorem run_append (c : LedgerCourse σ) (front back : List LedgerStep) :
    c.run save (front ++ back) = (c.run save front).run save back :=
  List.foldl_append

theorem run_concat (c : LedgerCourse σ) (steps : List LedgerStep) (s : LedgerStep) :
    c.run save (steps ++ [s]) = ((c.run save steps).step save s).1 := by
  rw [run_append, run_cons, run_nil]

/-- A refresh does to the ledger what `CommitLedger.refresh` does. -/
theorem ledger_step_refresh (c : LedgerCourse σ) (now checkpoint : Int)
    (marker : Option VersionMarker) :
    ((c.step save (.refresh now checkpoint marker)).1.ledger,
      (c.step save (.refresh now checkpoint marker)).2) =
        c.ledger.refresh now checkpoint marker := rfl

/-! ### One operation -/

/-- The course after no more than the sample of a step was offered. -/
def sampled (c : LedgerCourse σ) (s : LedgerStep) : LedgerCourse σ :=
  s.sample?.elim c fun r => (c.take r).1

/-- A step with a marker offers its sample, if it has one, and then looks at the marker. -/
theorem step_of_marker (c : LedgerCourse σ) {s : LedgerStep} {m : VersionMarker}
    (hm : s.marker? = some m) : c.step save s = (c.sampled s).look (some m) := by
  cases s with
  | observe marker =>
      cases hm
      rfl
  | refresh now checkpoint marker =>
      cases hm
      rfl
  | sample => cases hm
  | persist => cases hm
  | flush => cases hm

theorem take_of_accepts {c : LedgerCourse σ} {s : Sample}
    (hok : c.ledger.history.accepts s.timestamp = true) :
    c.take s = ({ c with
      ledger := { c.ledger with
        history := { c.ledger.history with
          samples := c.ledger.history.trim s.timestamp (c.ledger.history.samples ++ [s]) } }
      accepted := c.accepted ++ [s] }, true) := by
  rw [take, CommitLedger.sample, CheckpointHistory.add_of_accepts hok]
  rfl

theorem take_of_not_accepts {c : LedgerCourse σ} {s : Sample}
    (hno : c.ledger.history.accepts s.timestamp = false) : c.take s = (c, false) := by
  rw [take, CommitLedger.sample, CheckpointHistory.add_of_not_accepts hno]
  rfl

@[simp] theorem point_take (c : LedgerCourse σ) (s : Sample) :
    (c.take s).1.ledger.point = c.ledger.point := rfl

@[simp] theorem accepted_look (c : LedgerCourse σ) (marker : Option VersionMarker) :
    (c.look marker).1.accepted = c.accepted := rfl

@[simp] theorem history_look (c : LedgerCourse σ) (marker : Option VersionMarker) :
    (c.look marker).1.ledger.history = c.ledger.history := by
  rcases c.ledger.observe_cases marker with ⟨m, point, -, -, h⟩ | ⟨-, h⟩ <;> simp [look, h]

@[simp] theorem storedTimestamp_look (c : LedgerCourse σ) (marker : Option VersionMarker) :
    (c.look marker).1.ledger.storedTimestamp = c.ledger.storedTimestamp := by
  rcases c.ledger.observe_cases marker with ⟨m, point, -, -, h⟩ | ⟨-, h⟩ <;> simp [look, h]

@[simp] theorem point_sampled (c : LedgerCourse σ) (s : LedgerStep) :
    (c.sampled s).ledger.point = c.ledger.point := by
  unfold sampled
  cases s.sample? <;> rfl

@[simp] theorem store_sampled (c : LedgerCourse σ) (s : LedgerStep) :
    (c.sampled s).store = c.store := by
  unfold sampled
  cases s.sample? <;> rfl

/-- A step without a marker leaves the commit point alone. -/
theorem point_step_of_no_marker (c : LedgerCourse σ) {s : LedgerStep} (hm : s.marker? = none) :
    (c.step save s).1.ledger.point = c.ledger.point := by
  cases s with
  | sample => rfl
  | observe marker =>
      cases hm
      rfl
  | refresh now checkpoint marker =>
      cases hm
      rfl
  | persist => exact c.ledger.point_persist ..
  | flush force => exact c.ledger.point_flush ..

/-- Of a step, only the sample that it offers goes into the record of samples. -/
theorem accepted_step_eq (c : LedgerCourse σ) (s : LedgerStep) :
    (c.step save s).1.accepted = (c.sampled s).accepted := by
  cases s <;> rfl

/-- No sample is taken in that was not offered, and none is ever taken out. -/
theorem accepted_take (c : LedgerCourse σ) (r : Sample) :
    c.accepted <+: (c.take r).1.accepted ∧
      (c.take r).1.accepted.Sublist (c.accepted ++ [r]) := by
  cases hok : c.ledger.history.accepts r.timestamp with
  | true =>
      rw [take_of_accepts hok]
      exact ⟨List.prefix_append .., List.Sublist.refl _⟩
  | false =>
      rw [take_of_not_accepts hok]
      exact ⟨List.prefix_rfl, List.sublist_append_left ..⟩

theorem accepted_sampled (c : LedgerCourse σ) (s : LedgerStep) :
    c.accepted <+: (c.sampled s).accepted ∧
      (c.sampled s).accepted.Sublist (c.accepted ++ s.sample?.toList) := by
  unfold sampled
  cases s.sample? with
  | none => exact ⟨List.prefix_rfl, List.sublist_append_left ..⟩
  | some r => exact accepted_take c r

theorem accepted_run (c : LedgerCourse σ) (steps : List LedgerStep) :
    (c.run save steps).accepted.Sublist (c.accepted ++ steps.filterMap LedgerStep.sample?) := by
  induction steps generalizing c with
  | nil => simp
  | cons s steps ih =>
      refine (ih (c.step save s).1).trans ?_
      have hstep := (accepted_sampled c s).2.append_right (steps.filterMap LedgerStep.sample?)
      rw [← accepted_step_eq save] at hstep
      cases hs : s.sample? with
      | none => simpa [hs] using hstep
      | some r => simpa [hs] using hstep

theorem accepted_prefix_run (c : LedgerCourse σ) (steps : List LedgerStep) :
    c.accepted <+: (c.run save steps).accepted := by
  induction steps generalizing c with
  | nil => exact List.prefix_rfl
  | cons s steps ih =>
      refine List.IsPrefix.trans ?_ (ih (c.step save s).1)
      rw [accepted_step_eq]
      exact (accepted_sampled c s).1

/-! ### The invariant -/

/-- What every course of a ledger that was opened on `stored` keeps: the history is the new end of
all that was taken in, which stands in the order of time, and the checkpoint of the commit point is
the greatest that was ever led to. -/
structure Sound (stored : CommitPoint) (c : LedgerCourse σ) : Prop where
  room : 1 ≤ c.ledger.history.maxSamples
  kept : c.ledger.history.samples <:+ c.accepted
  newest : c.ledger.history.newest? = c.accepted.getLast?
  order : Sample.InOrder c.accepted
  checkpoint : c.ledger.point.checkpoint =
    (c.lookups.filter (0 ≤ ·)).foldl max stored.checkpoint

namespace Sound

variable {stored : CommitPoint} {c : LedgerCourse σ}

theorem begin (maxSamples maxAge : Nat) (stored : CommitPoint) (store : σ) :
    Sound stored (LedgerCourse.begin maxSamples maxAge stored store) where
  room := by
    rw [LedgerCourse.begin, CommitLedger.maxSamples_opened]
    exact CheckpointHistory.maxSamples_empty_pos ..
  kept := by
    rw [LedgerCourse.begin, CommitLedger.samples_opened]
  newest := by
    rw [LedgerCourse.begin, CheckpointHistory.newest?, CommitLedger.samples_opened]
  order := by
    rw [LedgerCourse.begin, CommitPoint.seed]
    split
    · exact List.pairwise_singleton _ _
    · exact List.Pairwise.nil
  checkpoint := rfl

theorem take (h : Sound stored c) (s : Sample) : Sound stored (c.take s).1 := by
  cases hok : c.ledger.history.accepts s.timestamp with
  | false =>
      rw [take_of_not_accepts hok]
      exact h
  | true =>
      have hnewest : ∀ r ∈ c.accepted.getLast?, r.timestamp ≤ s.timestamp := by
        rw [← h.newest]
        exact (CheckpointHistory.accepts_iff _ _).mp hok
      rw [take_of_accepts hok]
      -- trimming may drop from the old end what was kept so far, but never the new sample
      refine ⟨h.room, ?_, ?_, h.order.append_singleton hnewest, h.checkpoint⟩
      · obtain ⟨older, holder⟩ := h.kept
        refine (CheckpointHistory.trim_suffix _ _ _).trans ⟨older, ?_⟩
        show older ++ (c.ledger.history.samples ++ [s]) = c.accepted ++ [s]
        rw [← List.append_assoc, holder]
      · rw [CheckpointHistory.newest?, CheckpointHistory.newest?_trim h.room]
        simp

theorem look (h : Sound stored c) (marker : Option VersionMarker) :
    Sound stored (c.look marker).1 where
  room := by
    rw [history_look]
    exact h.room
  kept := by
    rw [history_look]
    exact h.kept
  newest := by
    rw [history_look]
    exact h.newest
  order := h.order
  checkpoint := by
    show (c.ledger.observe marker).1.point.checkpoint = _
    rw [CommitLedger.checkpoint_observe, h.checkpoint]
    simp [LedgerCourse.look, List.filter_append, List.foldl_append]

theorem settle (h : Sound stored c) {outcome : CommitLedger × σ × Except ε Bool}
    (hhistory : outcome.1.history = c.ledger.history) (hpoint : outcome.1.point = c.ledger.point) :
    Sound stored (c.settle outcome).1 where
  room := by
    rw [LedgerCourse.settle, hhistory]
    exact h.room
  kept := by
    rw [LedgerCourse.settle, hhistory]
    exact h.kept
  newest := by
    rw [LedgerCourse.settle, hhistory]
    exact h.newest
  order := h.order
  checkpoint := by
    rw [LedgerCourse.settle, hpoint]
    exact h.checkpoint

theorem step (h : Sound stored c) (s : LedgerStep) : Sound stored (c.step save s).1 := by
  cases s with
  | sample now checkpoint => exact h.take ⟨now, checkpoint⟩
  | observe marker => exact h.look marker
  | refresh now checkpoint marker => exact (h.take ⟨now, checkpoint⟩).look marker
  | persist => exact h.settle (c.ledger.history_persist ..) (c.ledger.point_persist ..)
  | flush force => exact h.settle (c.ledger.history_flush ..) (c.ledger.point_flush ..)

theorem run (h : Sound stored c) (steps : List LedgerStep) : Sound stored (c.run save steps) := by
  induction steps generalizing c with
  | nil => exact h
  | cons s steps ih => exact ih (h.step save s)

theorem sampled (h : Sound stored c) (s : LedgerStep) : Sound stored (c.sampled s) := by
  unfold LedgerCourse.sampled
  cases s.sample? with
  | none => exact h
  | some r => exact h.take r

/-- What the history answers is the checkpoint of the newest sample ever taken in at or before the
time. -/
theorem latest?_of_at? (h : Sound stored c) {time checkpoint : Int}
    (hat : c.ledger.history.at? time = some checkpoint) :
    ∃ s, Sample.latest? c.accepted time = some s ∧ s.checkpoint = checkpoint := by
  rw [CheckpointHistory.at?_eq_latest? (h.order.suffix h.kept)] at hat
  obtain ⟨s, hs, hcheckpoint⟩ := Option.map_eq_some_iff.mp hat
  exact ⟨s, Sample.latest?_of_suffix h.kept hs, hcheckpoint⟩

/-- A look-up no earlier than the newest sample finds that sample. -/
theorem at?_of_newest (h : Sound stored c) {s : Sample} (hs : c.accepted.getLast? = some s)
    {time : Int} (hle : s.timestamp ≤ time) :
    c.ledger.history.at? time = some s.checkpoint := by
  rw [CheckpointHistory.at?_eq_latest? (h.order.suffix h.kept)]
  rw [← h.newest, CheckpointHistory.newest?, List.getLast?_eq_some_iff] at hs
  obtain ⟨older, hsamples⟩ := hs
  rw [hsamples, Sample.latest?_concat_of_le hle, Option.map_some]

/-- The checkpoint of the commit point is never below the stored one. -/
theorem le_checkpoint (h : Sound stored c) : stored.checkpoint ≤ c.ledger.point.checkpoint := by
  rw [h.checkpoint, List.foldl_max]
  exact Int.le_max_left ..

end Sound

end LedgerCourse

end ShardKeeper
