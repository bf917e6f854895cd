import ShardKeeper.Node.Configured
import ShardKeeper.Proofs.Node.Startup
import ShardKeeper.Proofs.Reclaim.Ending
import ShardKeeper.Proofs.Searcher.Attempts
import ShardKeeper.Proofs.Settings.HostedShards

/-!
# What accepted numbers are good for

The parts of a node are given their numbers by the settings, and none of them
checks its own as long as they are sensible.  Removals of released data give up
at once without an attempt or a pause, calls need an attempt and a factor, waits
need a pause, and shards have to exist and to be different.  The checks of the
settings see to all of that.

## Main definitions

* `Settings.Workable` — what the parts of a node rely on.

## Main results

* `Settings.workable_of_ofText` — accepted settings are workable.
* `Settings.accepted_numbers_suffice` — no part of a node with accepted settings fails for them.
* `Settings.more_looks_than_intervals` — a wait may look more often than the interval says.
-/

namespace ShardKeeper

theorem Duration.nanos_ofMillis_pos {n : Nat} (h : 0 < n) : 0 < (Duration.ofMillis n).nanos :=
  Nat.lt_min.mpr ⟨Nat.mul_pos h (by decide), by decide⟩

namespace Settings

variable {text : List Char} {s : Settings}

/-! ### Workable settings -/

/-- What the parts of a node rely on. -/
structure Workable (s : Settings) : Prop where
  maxAttempts : 0 < s.searcher.maxAttempts
  multiplier : 0 < s.searcher.multiplier
  pollInterval : 0 < s.target.pollInterval
  retryInterval : 0 < s.deletion.retryInterval
  maxRetries : 0 < s.deletion.maxRetries
  exist : ∀ a ∈ s.shards, (HashSlice.ofShard? a.count a.index).isSome = true
  nodup : (s.shards.map Shard.id).Nodup

/-- In accepted settings no number is zero that must not be. -/
theorem forall_positives (h : ofText text = .ok s) : ∀ p ∈ s.positives, 0 < p.2.1 := by
  intro p hp
  have hcheck := checks_of_ofText h _
    (List.mem_append_left _ (List.mem_map.mpr ⟨p, hp, rfl⟩))
  exact Nat.pos_of_ne_zero fun hzero => by simp [hzero] at hcheck

/-- **Accepted settings are workable.** -/
theorem workable_of_ofText (h : ofText text = .ok s) : s.Workable := by
  obtain ⟨hexist, hnodup, -⟩ := shardsDefect?_eq_none_iff.mp (shardsDefect?_of_ofText h)
  have hpositive := forall_positives h
  simp only [positives, List.forall_mem_cons] at hpositive
  obtain ⟨hattempts, hmultiplier, hpoll, -, hretry, -, hretries, -⟩ := hpositive
  exact ⟨hattempts, hmultiplier, hpoll, hretry, hretries, hexist, hnodup⟩

namespace Workable

variable (h : s.Workable)
include h

theorem areUsable_reclaim : s.reclaim.areUsable = true := by
  have hpause : s.reclaim.pause.isZero = false :=
    beq_eq_false_iff_ne.mpr (Nat.ne_of_gt (Duration.nanos_ofMillis_pos h.retryInterval))
  have hattempts : (s.reclaim.maxAttempts != 0) = true :=
    bne_iff_ne.mpr (Nat.ne_of_gt h.maxRetries)
  rw [ReclaimSettings.areUsable, hpause, hattempts]
  rfl

theorem pollSettings_pos : 0 < s.pollSettings.interval.nanos :=
  Duration.nanos_ofMillis_pos h.pollInterval

theorem max_one_maxAttempts : max 1 s.backoff.maxAttempts = s.searcher.maxAttempts :=
  Nat.max_eq_right h.maxAttempts

end Workable

/-- How the removal of released data goes on a node with these settings. -/
def reclaimPlan (s : Settings) : ReclaimPlan := ⟨s.reclaim, s.pollSettings⟩

/-- All shards in the order in which they are listed, each with what happens while it is opened. -/
def openings (s : Settings) (meanwhile : Shard → Timeline) : List (OpeningPlan × Timeline) :=
  s.shards.map fun a => (s.opening a.id a.count (.file a.checkpointFile), meanwhile a)

theorem map_fst_openings (s : Settings) (meanwhile : Shard → Timeline) :
    (s.openings meanwhile).map (·.1) =
      s.shards.map fun a => s.opening a.id a.count (.file a.checkpointFile) := by
  rw [openings, List.map_map]
  rfl

namespace Workable

variable (h : s.Workable)
include h

/-- A saga that has not ended in an outcome can go on, and its settings are not why it ends. -/
theorem ends_or_goes_on {key : ReclaimKey} {steps : Nat} {saga : Saga}
    (hsteps : Saga.InSteps s.reclaimPlan (.ofKey key) steps saga) :
    (∃ outcome, saga.phase = .ended outcome ∧ outcome ≠ .invalidSettings) ∨
      saga.phase = .removing ∨ ∃ due, ∀ now cancelled catalog, due ≤ now →
        (saga.next? s.reclaimPlan now cancelled catalog).isSome = true := by
  by_cases hended : ∃ outcome, saga.phase = .ended outcome
  · obtain ⟨outcome, hphase⟩ := hended
    refine Or.inl ⟨outcome, hphase, ?_⟩
    rintro rfl
    exact hsteps.outcome_ne h.areUsable_reclaim hphase
  · have hlive : saga.isOver = false :=
      Saga.isOver_eq_false_iff.mpr fun outcome hphase => hended ⟨outcome, hphase⟩
    exact Or.inr (Saga.exists_due s.reclaimPlan hlive)

/-- The listed shards are not refused for being listed. -/
theorem not_mislisted {files : FileTree} {n : Node} (hn : (Node.configured s files).ServiceCourse n)
    (hnone : n.openings = []) {meanwhile : Shard → Timeline} {e : ShardError}
    (hfailed : some (.error e) ∈ n.openInOrder (s.openings meanwhile)) :
    e.isMislisted = false := by
  have hstart : (Node.configured s files).Unused := Node.unused_starting ..
  refine Node.not_mislisted_of_openInOrder hstart hn ?_ ?_ ?_ hfailed
  · intro p hp
    obtain ⟨a, -, rfl⟩ := List.mem_map.mp hp
    rfl
  · rw [hnone, map_fst_openings, List.nil_append, List.map_map]
    exact h.nodup
  · rw [hnone, map_fst_openings]
    intro p hp
    obtain ⟨a, ha, rfl⟩ := List.mem_map.mp hp
    exact h.exist a ha

end Workable

/-- **No part of a node fails for accepted numbers.**  Take any settings that were accepted.

* Every saga of the node, in every course of it, goes step by step from where it was asked for.  It
  makes a limited number of steps, and until it ends it can always go on.  It does not end because
  of its settings.
* If the listed shards are opened one after the other on a node that has opened none before, then
  none of them is refused because it does not exist or is hosted already, whatever happens in the
  meantime.
* The pauses between the attempts of a call never get shorter, and no call makes more attempts than
  are allowed, whether it runs by itself or is under way on the node.
* No wait looks at the catalog more often than it has pauses, and once more, however late its looks
  are. -/
theorem accepted_numbers_suffice (h : ofText text = .ok s) :
    (∀ (files : FileTree) (n : Node), (Node.configured s files).Course n →
      ∀ saga ∈ n.desk.sagas, ∃ steps, Saga.InSteps s.reclaimPlan (.ofKey saga.key) steps saga) ∧
    (∀ key steps saga, Saga.InSteps s.reclaimPlan (.ofKey key) steps saga →
      steps ≤ s.reclaimPlan.mostSteps ∧
      ((∃ outcome, saga.phase = .ended outcome ∧ outcome ≠ .invalidSettings) ∨
        saga.phase = .removing ∨ ∃ due, ∀ now cancelled catalog, due ≤ now →
          (saga.next? s.reclaimPlan now cancelled catalog).isSome = true)) ∧
    (∀ files n meanwhile e, (Node.configured s files).ServiceCourse n → n.openings = [] →
      some (.error e) ∈ n.openInOrder (s.openings meanwhile) →
        (∀ count index, e ≠ .noSuchShard count index) ∧ ∀ id, e ≠ .alreadyHosted id) ∧
    (s.backoff.delays.Pairwise fun a b => a.nanos ≤ b.nanos) ∧
    (∀ (ρ : Type) [Response ρ] (answers : Retry.Answers ρ) (cancelAt : Option Instant),
      (Retry.run s.backoff answers cancelAt).calls.length ≤ s.searcher.maxAttempts) ∧
    (∀ (ρ : Type) [Response ρ] (sent : Nat) (c : Call ρ), Call.Sends s.backoff sent c →
      sent ≤ s.searcher.maxAttempts) ∧
    ∀ w : CatalogWait, w.settings = s.pollSettings →
      (∀ surroundings, (w.run surroundings).polls.length ≤ s.pollSettings.rounds + 1) ∧
      ∀ looks, w.Looks w.started looks → looks.length ≤ s.pollSettings.rounds + 1 := by
  have hwork := workable_of_ofText h
  refine ⟨?sagas, ?ends, ?shards, ?pauses, ?calls, ?sends, ?waits⟩
  case sagas =>
    intro files n hcourse saga hsaga
    have hstart := Node.beforeReclaims_starting ⟨s.places.runtimeRoot⟩ files s.pollSettings
      s.backoff s.reclaim
    have hplan : n.desk.plan = s.reclaimPlan := hcourse.plan_eq
    rw [← hplan]
    exact hcourse.inSteps hstart saga hsaga
  case ends =>
    intro key steps saga hsteps
    exact ⟨hsteps.steps_le hwork.pollSettings_pos hwork.maxRetries, hwork.ends_or_goes_on hsteps⟩
  case shards =>
    intro files n meanwhile e hcourse hnone hfailed
    have hlisted := hwork.not_mislisted hcourse hnone hfailed
    exact ⟨fun _ _ he => by simp [he, ShardError.isMislisted] at hlisted,
      fun _ he => by simp [he, ShardError.isMislisted] at hlisted⟩
  case pauses => exact BackoffPolicy.pairwise_delays hwork.multiplier
  case calls =>
    intro ρ _ answers cancelAt
    rw [← hwork.max_one_maxAttempts]
    exact Retry.length_calls_le s.backoff answers cancelAt
  case sends =>
    intro ρ _ sent c hsends
    rw [← hwork.max_one_maxAttempts]
    exact hsends.attempts_le
  case waits =>
    intro w hw
    have hpace : 0 < w.settings.interval.nanos := hw ▸ hwork.pollSettings_pos
    rw [← hw]
    refine ⟨fun surroundings => CatalogWait.length_polls_le hpace, fun looks hlooks => ?_⟩
    rw [← CatalogWait.looksLeft_started]
    exact hlooks.length_le hpace

/-- Three attempts for a call, two for a removal, looks after each second for two and a half, and
the two halves of a table, which are served when the node comes to open them. -/
theorem accepted_numbers_suffice_of_small_numbers :
    let text :=
      ("[rpc]\nmax_attempts = 3\n[target]\npoll_interval_ms = 1000\ntimeout_ms = 2500\n" ++
      "[deletion]\nmax_retries = 2\n" ++
      "[[shards]]\ntable = \"t\"\nindex = 0\nshard_count = 2\ncheckpoint_file = \"c\"\n" ++
      "[[shards]]\ntable = \"t\"\nindex = 1\nshard_count = 2\ncheckpoint_file = \"d\"\n").toList
    let s : Settings :=
      { searcher.maxAttempts := 3, target.timeout := 2500, deletion.maxRetries := 2,
        shards := [⟨"t", 0, 2, ⟨"c"⟩⟩, ⟨"t", 1, 2, ⟨"d"⟩⟩] }
    let served : Timeline := [(0, .publish ⟨[("t", [(0, ⟨["0_32767", "32768_65535"]⟩)])]⟩)]
    let results := (Node.configured s .empty).openInOrder (s.openings fun _ => served)
    ofText text = .ok s ∧
      (∀ key steps saga, Saga.InSteps s.reclaimPlan (.ofKey key) steps saga → steps ≤ 14) ∧
      (∀ id, some (.error (.alreadyHosted id)) ∉ results) ∧
      results.map (Option.bind · Except.toOption) = [some 0, some 1] ∧
      (∀ (answers : Retry.Answers WriteResponse) (cancelAt : Option Instant),
        (Retry.run s.backoff answers cancelAt).calls.length ≤ 3) ∧
      ∀ (condition : CatalogCondition) (started : Instant) (surroundings : Surroundings),
        (CatalogWait.run ⟨condition, s.pollSettings, started⟩ surroundings).polls.length ≤ 4 := by
  intro text s served results
  have hread : (ofText text).toOption = some s := by decide +kernel
  have hs : ofText text = .ok s := Node.eq_ok_of_toOption hread
  have hsteps : s.reclaimPlan.mostSteps = 14 := by decide
  have hlooks : s.pollSettings.rounds + 1 = 4 := by decide
  obtain ⟨-, hends, hopened, -, hcalls, -, hwaits⟩ := accepted_numbers_suffice hs
  refine ⟨hs, ?_, fun id hmem => ?_, by decide +kernel,
    fun answers cancelAt => hcalls WriteResponse answers cancelAt, ?_⟩
  · rw [← hsteps]
    exact fun key steps saga hsaga => (hends key steps saga hsaga).1
  · have hnone : (Node.configured s .empty).openings = [] := rfl
    have hno := hopened .empty _ (fun _ => served) (.alreadyHosted id) .refl hnone hmem
    exact hno.2 id rfl
  · rw [← hlooks]
    exact fun condition started => (hwaits ⟨condition, s.pollSettings, started⟩ rfl).1

/-- A wait with an interval of more than sixty years, and as much time: it looks again after each
thirty years, so four times and not twice. -/
theorem more_looks_than_intervals :
    let text :=
      "[target]\npoll_interval_ms = 2000000000000\ntimeout_ms = 2000000000000\n".toList
    let s : Settings :=
      { target.pollInterval := 2000000000000, target.timeout := 2000000000000 }
    let w : CatalogWait := ⟨.presence "t" "p", s.pollSettings, 0⟩
    ofText text = .ok s ∧
      (s.target.timeout + s.target.pollInterval - 1) / s.target.pollInterval + 1 = 2 ∧
      (w.run (Timeline.surroundings [])).polls.length = 4 := by
  intro text s w
  have hread : (ofText text).toOption = some s := by decide +kernel
  have hrun := CatalogWait.run_of_late (w := w) (s := Timeline.surroundings []) (by decide)
    (fun c hc => by cases hc) fun _ _ => rfl
  refine ⟨Node.eq_ok_of_toOption hread, by decide, ?_⟩
  rw [hrun, List.length_map, List.length_range]
  decide

end Settings

end ShardKeeper
