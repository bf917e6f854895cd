import Mathlib.Logic.Relation
import ShardKeeper.Proofs.Numbered
import ShardKeeper.Shard.Documents
import ShardKeeper.Shard.Report

/-!
# Statistics of a shard that several report on at once

A report reads the counters, measures the data and then keeps what it has found for
later reports, with others at work in between.  So statistics can be kept in another
order than they were read, and what is kept last may be older than what somebody was
given before.

Whether later reports can fall behind some statistics is decided by two things: what is
kept and still young, and what those have in hand who have not kept it yet.

## Main definitions

* `Inquiry` — a shard, the time, and the reports on the shard.
* `Inquiry.after?`, `Inquiry.Course` — whatever can happen next, and any number of such steps.
* `Inquiry.Guarantees` — whoever has read nothing yet will be given at least some statistics.
* `Inquiry.Carries` — nothing young that is kept and nothing in hand is below them.

## Main results

* `Inquiry.Sound.course` — nobody is ever given more than was counted.
* `Inquiry.Floor.course` — what later reports reach, through any course.
* `Inquiry.guarantees_iff` — later reports reach some statistics exactly if these are carried.
* `Inquiry.guarantees_of_alone` — what a report gives that ends while no other is under way.
* `Inquiry.guarantees_of_ageless` — what any report gives if nothing is reported again for its age.
* `Inquiry.exists_falling_behind` — two reports at once, and a later one that falls behind.
* `Inquiry.later_reports_reach_iff` — all of this for a shard that nobody has reported on before.
-/

namespace ShardKeeper

/-- Neither counter is above that of other statistics. -/
structure Statistics.AtMost (t u : Statistics) : Prop where
  indexed : t.indexed ≤ u.indexed
  deleted : t.deleted ≤ u.deleted

theorem Statistics.AtMost.refl (t : Statistics) : t.AtMost t := ⟨le_rfl, le_rfl⟩

theorem Statistics.AtMost.trans {t u v : Statistics} (h₁ : t.AtMost u) (h₂ : u.AtMost v) :
    t.AtMost v :=
  ⟨h₁.indexed.trans h₂.indexed, h₁.deleted.trans h₂.deleted⟩

/-- Both counts of statistics that agree in their counters. -/
theorem Statistics.atMost_of_sameCounters {t u : Statistics} (h : t.sameCounters u = true) :
    t.AtMost u ∧ u.AtMost t := by
  simp only [sameCounters, Bool.and_eq_true, beq_iff_eq] at h
  exact ⟨⟨h.1.1.le, h.1.2.le⟩, ⟨h.1.1.ge, h.1.2.ge⟩⟩

/-- What a report has read, whether it has ended or not. -/
def ReportPhase.read? : ReportPhase → Option Statistics
  | .loading => none
  | .measuring t | .keeping t | .done t => some t

/-- What is reported again is kept, and is young or agrees with the counters. -/
theorem HostedShard.reusable?_eq_some {s : HostedShard} {counters t : Statistics} {clock : Int}
    (h : s.reusable? counters clock = some t) :
    ∃ computed, s.reported = some (t, computed) ∧
      (clock - computed < s.statisticsAge.nanos ∨ t.sameCounters counters = true) := by
  unfold reusable? at h
  split at h
  · cases h
  · rename_i old computed hkept
    obtain ⟨hreuse, ht⟩ := Option.ite_none_right_eq_some.mp h
    obtain rfl := Option.some.inj ht
    simp only [Bool.or_eq_true, decide_eq_true_eq, Bool.and_eq_true] at hreuse
    exact ⟨computed, hkept, hreuse.imp_right And.left⟩

/-- Young statistics are reported again. -/
theorem HostedShard.reusable?_of_young {s : HostedShard} {counters t : Statistics}
    {clock computed : Int} (hkept : s.reported = some (t, computed))
    (hyoung : clock - computed < s.statisticsAge.nanos) :
    s.reusable? counters clock = some t := by
  simp [reusable?, hkept, hyoung]

/-- What a step of a report makes of the shard and of itself. -/
inductive ReportPhase.Takes (s : HostedShard) (clock : Int) :
    ReportPhase → HostedShard → ReportPhase → Prop where
  /-- It gives again what is kept. -/
  | reuse {t : Statistics} (ht : s.reusable? s.counters clock = some t) :
      Takes s clock .loading s (.done t)
  | load : Takes s clock .loading s (.measuring s.counters)
  | measure {t : Statistics} {size : Option Nat} :
      Takes s clock (.measuring t) s (.keeping { t with size })
  | keep {t : Statistics} :
      Takes s clock (.keeping t) { s with reported := some (t, clock) } (.done t)

theorem ReportPhase.takes_of_next? {s s' : HostedShard} {clock : Int} {size : Option Nat}
    {phase phase' : ReportPhase} (h : phase.next? s clock size = some (s', phase')) :
    phase.Takes s clock s' phase' := by
  cases phase with
  | loading =>
      rw [next?] at h
      split at h <;> cases h
      · rename_i ht
        exact .reuse ht
      · exact .load
  | measuring t =>
      cases h
      exact .measure
  | keeping t =>
      cases h
      exact .keep
  | done t => cases h

/-! ### Courses -/

/-- A shard, the time on the machine's clock in nanoseconds, and all the reports on the shard. -/
structure Inquiry where
  shard : HostedShard
  clock : Int
  reports : List ReportPhase

namespace Inquiry

/-- What can happen while a shard is reported on. -/
inductive Act where
  /-- A change of a document is counted. -/
  | count (operation : DocumentChange.Operation)
  /-- The commit point advances, or anything else happens to the ledger. -/
  | enter (ledger : CommitLedger)
  | wait (nanos : Nat)
  /-- Somebody asks for a report. -/
  | ask
  /-- The next step of a report, where the data has a size if it can be measured. -/
  | report (number : Nat) (size : Option Nat)

/-- What becomes of a shard and its reports when something happens, if it can happen. -/
def after? (q : Inquiry) : Act → Option Inquiry
  | .count operation => some { q with shard := q.shard.count operation }
  | .enter ledger => some { q with shard := { q.shard with ledger } }
  | .wait nanos => some { q with clock := q.clock + nanos }
  | .ask => some { q with reports := q.reports ++ [.loading] }
  | .report number size => do
    let (shard, phase) ← (← q.reports[number]?).next? q.shard q.clock size
    return { q with shard, reports := q.reports.set number phase }

/-- Anything that can happen. -/
def Step (q q' : Inquiry) : Prop := ∃ act, q.after? act = some q'

/-- Any number of things happen. -/
abbrev Course : Inquiry → Inquiry → Prop := Relation.ReflTransGen Step

/-- What becomes of a shard and its reports when things happen one after the other. -/
def run? (q : Inquiry) (acts : List Act) : Option Inquiry := acts.foldlM after? q

/-- A shard that nobody has reported on. -/
def start (s : HostedShard) (clock : Int) : Inquiry := ⟨{ s with reported := none }, clock, []⟩

variable {q q' : Inquiry} {i : Nat} {t S : Statistics} {phase : ReportPhase} {size : Option Nat}

theorem course_of_run (acts : List Act) (h : q.run? acts = some q') : q.Course q' := by
  induction acts generalizing q with
  | nil =>
      obtain rfl := Option.some.inj h
      exact .refl
  | cons act acts ih =>
      rw [run?, List.foldlM_cons] at h
      obtain ⟨r, hact, hrest⟩ := Option.bind_eq_some_iff.mp h
      exact (ih hrest).head ⟨act, hact⟩

theorem after?_report_eq_some_iff : q.after? (.report i size) = some q' ↔
    ∃ phase s phase', q.reports[i]? = some phase ∧
      phase.next? q.shard q.clock size = some (s, phase') ∧
      ⟨s, q.clock, q.reports.set i phase'⟩ = q' := by
  simp [after?, Option.bind_eq_some_iff]

theorem step_ask (q : Inquiry) : q.Step ⟨q.shard, q.clock, q.reports ++ [.loading]⟩ := ⟨.ask, rfl⟩

theorem step_report {s : HostedShard} {phase' : ReportPhase} (size : Option Nat)
    (hi : q.reports[i]? = some phase)
    (hnext : phase.next? q.shard q.clock size = some (s, phase')) :
    q.Step ⟨s, q.clock, q.reports.set i phase'⟩ :=
  ⟨.report i size, after?_report_eq_some_iff.mpr ⟨phase, s, phase', hi, hnext, rfl⟩⟩

/-- All that a step can do. -/
inductive Moves (q : Inquiry) : Inquiry → Prop where
  /-- Something is counted or entered, or time passes. -/
  | aside {s : HostedShard} {clock : Int} (hcounters : q.shard.counters.AtMost s.counters)
      (hkept : s.reported = q.shard.reported) (hage : s.statisticsAge = q.shard.statisticsAge)
      (hclock : q.clock ≤ clock) : Moves q ⟨s, clock, q.reports⟩
  | ask : Moves q ⟨q.shard, q.clock, q.reports ++ [.loading]⟩
  | report {i : Nat} {phase phase' : ReportPhase} {s : HostedShard}
      (hi : q.reports[i]? = some phase) (htakes : phase.Takes q.shard q.clock s phase') :
      Moves q ⟨s, q.clock, q.reports.set i phase'⟩

theorem Step.moves (h : q.Step q') : q.Moves q' := by
  obtain ⟨act, hact⟩ := h
  cases act with
  | count operation =>
      obtain rfl := Option.some.inj hact
      cases operation with
      | index => exact .aside ⟨Nat.le_succ _, le_rfl⟩ rfl rfl (Int.le_refl _)
      | delete => exact .aside ⟨le_rfl, Nat.le_succ _⟩ rfl rfl (Int.le_refl _)
  | enter ledger =>
      obtain rfl := Option.some.inj hact
      exact .aside ⟨le_rfl, le_rfl⟩ rfl rfl (Int.le_refl _)
  | wait nanos =>
      obtain rfl := Option.some.inj hact
      exact .aside (.refl _) rfl rfl (by omega)
  | ask =>
      obtain rfl := Option.some.inj hact
      exact .ask
  | report i size =>
      obtain ⟨phase, s, phase', hi, hnext, rfl⟩ := after?_report_eq_some_iff.mp hact
      exact .report hi (ReportPhase.takes_of_next? hnext)

/-- How long statistics are reported again never changes. -/
theorem statisticsAge_eq (h : q.Course q') :
    q'.shard.statisticsAge = q.shard.statisticsAge := by
  induction h with
  | refl => rfl
  | tail _ hstep ih =>
      refine Eq.trans ?_ ih
      cases hstep.moves with
      | aside hcounters hkept hage hclock => exact hage
      | ask => rfl
      | report hi htakes => cases htakes <;> rfl

/-! ### What was read -/

/-- A report has read the counters, or what was kept. -/
def HasRead (q : Inquiry) (i : Nat) : Prop :=
  ∃ phase t, q.reports[i]? = some phase ∧ phase.read? = some t

/-- What was read stays read. -/
theorem HasRead.step (h : q.HasRead i) (hstep : q.Step q') : q'.HasRead i := by
  obtain ⟨old, t, hi, ht⟩ := h
  cases hstep.moves with
  | aside => exact ⟨old, t, hi, ht⟩
  | ask => exact ⟨old, t, getElem?_concat_eq_some_iff.mpr (.inr hi), ht⟩
  | @report j phase phase' s hj htakes =>
      rcases eq_or_ne i j with rfl | hne
      · obtain ⟨u, hu⟩ : ∃ u, phase'.read? = some u := by cases htakes <;> exact ⟨_, rfl⟩
        exact ⟨phase', u, (getElem?_set_eq_some_iff hj).mpr (.inl ⟨rfl, rfl⟩), hu⟩
      · exact ⟨old, t, (getElem?_set_eq_some_iff hj).mpr (.inr ⟨hne, hi⟩), ht⟩

theorem HasRead.course (h : q.HasRead i) (hcourse : q.Course q') : q'.HasRead i := by
  induction hcourse with
  | refl => exact h
  | tail _ hstep ih => exact ih.step hstep

/-- What holds of all that was read. -/
def ReadsAre (reports : List ReportPhase) (P : Nat → ReportPhase → Statistics → Prop) : Prop :=
  ∀ (i : Nat) (phase : ReportPhase) (t : Statistics), reports[i]? = some phase →
    phase.read? = some t → P i phase t

section ReadsAre

variable {reports : List ReportPhase} {P : Nat → ReportPhase → Statistics → Prop}

/-- Whoever asks has read nothing. -/
theorem ReadsAre.ask (h : ReadsAre reports P) : ReadsAre (reports ++ [.loading]) P := by
  intro i phase t hi ht
  rcases getElem?_concat_eq_some_iff.mp hi with ⟨-, rfl⟩ | hi
  · cases ht
  · exact h i phase t hi ht

/-- Whoever takes a step answers for what it has read then. -/
theorem ReadsAre.report {phase' : ReportPhase} (h : ReadsAre reports P)
    (hi : reports[i]? = some phase) (hread : ∀ t, phase'.read? = some t → P i phase' t) :
    ReadsAre (reports.set i phase') P := by
  intro j old t hj ht
  rcases (getElem?_set_eq_some_iff hi).mp hj with ⟨rfl, rfl⟩ | ⟨-, hj⟩
  · exact hread t ht
  · exact h j old t hj ht

end ReadsAre

/-! ### Nobody is given more than was counted -/

/-- What was read is at most what is counted, and what is kept was kept before now. -/
structure Sound (q : Inquiry) : Prop where
  read : ReadsAre q.reports fun _ _ t => t.AtMost q.shard.counters
  kept : ∀ (t : Statistics) (computed : Int), q.shard.reported = some (t, computed) →
    t.AtMost q.shard.counters ∧ computed ≤ q.clock

theorem sound_start (s : HostedShard) (clock : Int) : (start s clock).Sound where
  read i phase t hi _ := by cases hi
  kept t computed hkept := by cases hkept

theorem Sound.step (h : q.Sound) (hstep : q.Step q') : q'.Sound := by
  cases hstep.moves with
  | aside hcounters hkept hage hclock =>
      refine ⟨fun i phase t hi ht => (h.read i phase t hi ht).trans hcounters,
        fun t computed ht => ?_⟩
      obtain ⟨hcounted, hbefore⟩ := h.kept t computed (hkept.symm.trans ht)
      exact ⟨hcounted.trans hcounters, Int.le_trans hbefore hclock⟩
  | ask => exact ⟨h.read.ask, h.kept⟩
  | @report i phase phase' s hi htakes =>
      have hcounters : s.counters = q.shard.counters := by cases htakes <;> rfl
      have hread : ∀ t, phase'.read? = some t → t.AtMost q.shard.counters := by
        intro t ht
        cases htakes with
        | reuse hreuse =>
            obtain rfl := Option.some.inj ht
            obtain ⟨computed, hkept, -⟩ := HostedShard.reusable?_eq_some hreuse
            exact (h.kept _ computed hkept).1
        | load =>
            obtain rfl := Option.some.inj ht
            exact .refl _
        | measure =>
            obtain rfl := Option.some.inj ht
            have hcounted := h.read i _ _ hi rfl
            exact ⟨hcounted.indexed, hcounted.deleted⟩
        | keep => exact h.read i _ t hi ht
      refine ⟨by simpa only [hcounters] using h.read.report hi hread, fun t computed hkept => ?_⟩
      cases htakes with
      | keep =>
          cases hkept
          exact ⟨hread _ rfl, Int.le_refl _⟩
      | reuse | load | measure => exact h.kept t computed hkept

/-- **Nobody is ever given more than was counted**, whatever happens. -/
theorem Sound.course (h : q.Sound) (hcourse : q.Course q') : q'.Sound := by
  induction hcourse with
  | refl => exact h
  | tail _ hstep ih => exact ih.step hstep

/-! ### What later reports reach -/

/-- Whoever has read nothing yet will be given at least `S`. -/
def Guarantees (q : Inquiry) (S : Statistics) : Prop :=
  ∀ q', q.Course q' → ∀ (i : Nat) (t : Statistics), ¬q.HasRead i →
    q'.reports[i]? = some (.done t) → S.AtMost t

/-- What is kept is at least `S`, or too old to be reported again for its age. -/
def KeepsOrForgets (q : Inquiry) (S : Statistics) : Prop :=
  ∀ (t : Statistics) (computed : Int), q.shard.reported = some (t, computed) →
    S.AtMost t ∨ q.shard.statisticsAge.nanos ≤ q.clock - computed

/-- Nothing young that is kept and nothing in hand is below `S`. What is in hand does no harm if it
is not reported again for its age. -/
structure Carries (q : Inquiry) (S : Statistics) : Prop where
  kept : q.KeepsOrForgets S
  hand : q.shard.statisticsAge.nanos = 0 ∨
    ∀ (i : Nat) (t : Statistics), q.reports[i]? = some (.measuring t) ∨
      q.reports[i]? = some (.keeping t) → S.AtMost t

/-- Reports that had read something before may be below `S`, but cannot pass that on. All others
are not. -/
structure Floor (S : Statistics) (before : Nat → Prop) (q : Inquiry) : Prop where
  counted : S.AtMost q.shard.counters
  kept : q.KeepsOrForgets S
  read : ReadsAre q.reports fun i phase t =>
    S.AtMost t ∨ before i ∧ (phase.result?.isSome ∨ q.shard.statisticsAge.nanos = 0)

variable {before : Nat → Prop}

/-- What is reported again is at least `S`. -/
theorem Floor.reuse (h : q.Floor S before)
    (ht : q.shard.reusable? q.shard.counters q.clock = some t) : S.AtMost t := by
  obtain ⟨computed, hkept, hreuse⟩ := HostedShard.reusable?_eq_some ht
  rcases h.kept t computed hkept with hS | hold
  · exact hS
  · -- it is old, so nothing has changed
    have hsame := hreuse.resolve_left (Int.not_lt.mpr hold)
    exact h.counted.trans (Statistics.atMost_of_sameCounters hsame).2

theorem Floor.step (h : q.Floor S before) (hstep : q.Step q') : q'.Floor S before := by
  cases hstep.moves with
  | aside hcounters hkept hage hclock =>
      refine ⟨h.counted.trans hcounters, fun t computed ht => ?_, fun i phase t hi ht => ?_⟩
      · refine (h.kept t computed (hkept.symm.trans ht)).imp_right fun hold => ?_
        rw [hage]
        exact Int.le_trans hold (Int.sub_le_sub_right hclock _)
      · show _ ∨ _ ∧ (_ ∨ _)
        rw [hage]
        exact h.read i phase t hi ht
  | ask => exact ⟨h.counted, h.kept, h.read.ask⟩
  | @report i phase phase' s hi htakes =>
      have hcounters : s.counters = q.shard.counters := by cases htakes <;> rfl
      have hage : s.statisticsAge = q.shard.statisticsAge := by cases htakes <;> rfl
      have hread : ∀ t, phase'.read? = some t → S.AtMost t ∨
          before i ∧ (phase'.result?.isSome ∨ q.shard.statisticsAge.nanos = 0) := by
        intro t ht
        cases htakes with
        | reuse hreuse =>
            obtain rfl := Option.some.inj ht
            exact .inl (h.reuse hreuse)
        | load =>
            obtain rfl := Option.some.inj ht
            exact .inl h.counted
        | measure =>
            obtain rfl := Option.some.inj ht
            exact (h.read i _ _ hi rfl).imp_left fun hS => ⟨hS.indexed, hS.deleted⟩
        | keep => exact (h.read i _ t hi ht).imp_right fun hbefore => ⟨hbefore.1, .inl rfl⟩
      refine ⟨hcounters ▸ h.counted, fun t computed hkept => ?_,
        by simpa only [hage] using h.read.report hi hread⟩
      cases htakes with
      | keep =>
          cases hkept
          -- if it is below `S`, it is too old as soon as it is kept
          refine (h.read i _ t hi rfl).imp_right fun hbefore => ?_
          have hzero : q.shard.statisticsAge.nanos = 0 :=
            hbefore.2.resolve_left (by simp [ReportPhase.result?])
          simp [hzero]
      | reuse | load | measure => exact h.kept t computed hkept

/-- **What later reports reach stays in reach** through any course. -/
theorem Floor.course (h : q.Floor S before) (hcourse : q.Course q') : q'.Floor S before := by
  induction hcourse with
  | refl => exact h
  | tail _ hstep ih => exact ih.step hstep

theorem Carries.floor (h : q.Carries S) (hS : S.AtMost q.shard.counters) :
    q.Floor S q.HasRead := by
  refine ⟨hS, h.kept, fun i phase t hi ht => ?_⟩
  have hread : q.HasRead i := ⟨phase, t, hi, ht⟩
  rcases h.hand with hage | hhand
  · exact .inr ⟨hread, .inr hage⟩
  · cases phase with
    | loading => cases ht
    | measuring u =>
        obtain rfl := Option.some.inj ht
        exact .inl (hhand i u (.inl hi))
    | keeping u =>
        obtain rfl := Option.some.inj ht
        exact .inl (hhand i u (.inr hi))
    | done u => exact .inr ⟨hread, .inl rfl⟩

/-! ### What later reports can fall behind -/

theorem Guarantees.course (h : q.Guarantees S) (hcourse : q.Course q') : q'.Guarantees S :=
  fun p hp i t hi ht => h p (hcourse.trans hp) i t (fun hread => hi (hread.course hcourse)) ht

/-- The next one to ask is given what is kept if that is young. -/
theorem Guarantees.keepsOrForgets (h : q.Guarantees S) : q.KeepsOrForgets S := by
  intro t computed hkept
  rcases Int.lt_or_le (q.clock - computed) q.shard.statisticsAge.nanos with hyoung | hold
  · left
    have hlast : (q.reports ++ [ReportPhase.loading])[q.reports.length]? = some .loading :=
      List.getElem?_concat_length
    have hreuse : q.shard.reusable? q.shard.counters q.clock = some t :=
      HostedShard.reusable?_of_young hkept hyoung
    have hgiven : Step ⟨q.shard, q.clock, q.reports ++ [.loading]⟩ _ :=
      step_report none hlast (by rw [ReportPhase.next?, hreuse])
    refine h _ ((Relation.ReflTransGen.single q.step_ask).tail hgiven) q.reports.length t ?_ ?_
    · rintro ⟨phase, u, hi, -⟩
      simp at hi
    · exact (getElem?_set_eq_some_iff hlast).mpr (.inl ⟨rfl, rfl⟩)
  · exact .inr hold

theorem Guarantees.keeping (h : q.Guarantees S) (hage : q.shard.statisticsAge.nanos ≠ 0)
    (hi : q.reports[i]? = some (.keeping t)) : S.AtMost t := by
  have hkeep := step_report none hi rfl
  refine ((h.course (.single hkeep)).keepsOrForgets t q.clock rfl).resolve_right ?_
  show ¬(q.shard.statisticsAge.nanos : Int) ≤ q.clock - q.clock
  omega

theorem Guarantees.measuring (h : q.Guarantees S) (hage : q.shard.statisticsAge.nanos ≠ 0)
    (hi : q.reports[i]? = some (.measuring t)) : S.AtMost t := by
  have hmeasure := step_report none hi rfl
  have hS := (h.course (.single hmeasure)).keeping hage
    ((getElem?_set_eq_some_iff hi).mpr (.inl ⟨rfl, rfl⟩))
  exact ⟨hS.indexed, hS.deleted⟩

/-- **Later reports reach some statistics exactly if these are carried**: if what is kept is at
least these or too old, and what anybody has in hand is at least these or cannot be passed on. -/
theorem guarantees_iff (hS : S.AtMost q.shard.counters) : q.Guarantees S ↔ q.Carries S := by
  constructor
  · intro h
    refine ⟨h.keepsOrForgets, or_iff_not_imp_left.mpr fun hage i t hi => ?_⟩
    rcases hi with hi | hi
    · exact h.measuring hage hi
    · exact h.keeping hage hi
  · intro h q' hcourse i t hi ht
    refine (((h.floor hS).course hcourse).read i _ t ht rfl).resolve_right ?_
    exact fun hbefore => hi hbefore.1

/-! ### One report after another -/

/-- Nobody but `i` has anything in hand. -/
def Alone (q : Inquiry) (i : Nat) : Prop :=
  ∀ (j : Nat) (phase : ReportPhase), q.reports[j]? = some phase → j ≠ i →
    phase = .loading ∨ phase.result?.isSome

/-- What a report gives when it ends is kept from then on, with what others have in hand. -/
theorem carries_of_alone (hstep : q.after? (.report i size) = some q')
    (hend : q'.reports[i]? = some (.done S)) (halone : q.Alone i) : q'.Carries S := by
  obtain ⟨phase, s, phase', hi, hnext, rfl⟩ := after?_report_eq_some_iff.mp hstep
  obtain rfl : phase' = .done S := by
    rw [List.getElem?_set_self (List.getElem?_eq_some_iff.mp hi).1] at hend
    exact Option.some.inj hend
  have hkept : ∃ computed, s.reported = some (S, computed) := by
    cases ReportPhase.takes_of_next? hnext with
    | reuse ht =>
        obtain ⟨computed, hkept, -⟩ := HostedShard.reusable?_eq_some ht
        exact ⟨computed, hkept⟩
    | keep => exact ⟨q.clock, rfl⟩
  obtain ⟨computed, hkept⟩ := hkept
  refine ⟨fun t computed' ht => .inl ?_, .inr fun j t hj => ?_⟩
  · cases hkept.symm.trans ht
    exact .refl _
  · exfalso
    rw [getElem?_set_eq_some_iff hi, getElem?_set_eq_some_iff hi] at hj
    rcases hj with (⟨-, hj⟩ | ⟨hne, hj⟩) | ⟨-, hj⟩ | ⟨hne, hj⟩
    · cases hj
    · simpa [ReportPhase.result?] using halone j _ hj hne
    · cases hj
    · simpa [ReportPhase.result?] using halone j _ hj hne

/-- **A report that ends while no other one is under way is never fallen behind**, whatever happens
later on. -/
theorem guarantees_of_alone (h : q.Sound) (hstep : q.after? (.report i size) = some q')
    (hend : q'.reports[i]? = some (.done S)) (halone : q.Alone i) : q'.Guarantees S :=
  (guarantees_iff ((h.step ⟨_, hstep⟩).read i _ S hend rfl)).mpr
    (carries_of_alone hstep hend halone)

/-- **No report is ever fallen behind if nothing is reported again for its age.** -/
theorem guarantees_of_ageless (h : q.Sound) (hage : q.shard.statisticsAge.nanos = 0)
    (hend : q.reports[i]? = some (.done S)) : q.Guarantees S := by
  refine (guarantees_iff (h.read i _ S hend rfl)).mpr ⟨fun t computed hkept => .inr ?_, .inl hage⟩
  have hbefore := (h.kept t computed hkept).2
  rw [hage]
  omega

/-! ### Two reports at once -/

/-- Two reports are under way at once: one reads the counters, something is counted, and the other
one reads, measures and ends first. -/
def overtaking : List Act :=
  [.ask, .report 0 none, .count .index, .ask, .report 1 none, .report 1 none, .report 1 none]

/-- The first report still has in hand what was counted before. -/
theorem run_overtaking (s : HostedShard) (clock : Int) :
    let S := (s.count .index).counters
    (start s clock).run? overtaking =
      some ⟨{ s.count .index with reported := some (S, clock) }, clock,
        [.measuring s.counters, .done S]⟩ := rfl

/-- **If statistics are reported again while they are young, two reports at once are enough** for a
later one to fall behind. -/
theorem exists_falling_behind (s : HostedShard) (clock : Int) (hage : s.statisticsAge.nanos ≠ 0) :
    ∃ q S, (start s clock).Course q ∧ q.reports[1]? = some (.done S) ∧ ¬q.Guarantees S := by
  refine ⟨_, _, course_of_run _ (run_overtaking s clock), rfl, fun h => ?_⟩
  have hbehind := (h.measuring hage (i := 0) rfl).indexed
  exact Nat.not_succ_le_self _ hbehind

/-- **What later reports reach.**  Whatever is counted and entered, and however the reports on a
shard overlap, later reports reach what a report gave exactly if that is still carried.  When no
other report is under way as it ends, it is.  All that reports ever give is reached by later ones
exactly if nothing is reported again for its age. -/
theorem later_reports_reach_iff (s : HostedShard) (clock : Int) :
    (∀ q, (start s clock).Course q → ∀ (i : Nat) (S : Statistics),
      q.reports[i]? = some (.done S) →
        (q.Guarantees S ↔ q.Carries S) ∧
        ∀ p size, (start s clock).Course p → p.after? (.report i size) = some q → p.Alone i →
          q.Guarantees S) ∧
    ((∀ q, (start s clock).Course q → ∀ (i : Nat) (S : Statistics),
      q.reports[i]? = some (.done S) → q.Guarantees S) ↔ s.statisticsAge.nanos = 0) := by
  have hsound : ∀ {q}, (start s clock).Course q → q.Sound := (sound_start s clock).course
  refine ⟨fun q hq i S hend => ⟨?reach, ?alone⟩, ?always, ?ageless⟩
  case reach => exact guarantees_iff ((hsound hq).read i _ S hend rfl)
  case alone => exact fun p size hp hstep => guarantees_of_alone (hsound hp) hstep hend
  case always =>
    intro hall
    by_contra hage
    obtain ⟨q, S, hq, hend, hbehind⟩ := exists_falling_behind s clock hage
    exact hbehind (hall q hq 1 S hend)
  case ageless =>
    intro hage q hq i S hend
    refine guarantees_of_ageless (hsound hq) ?_ hend
    rw [statisticsAge_eq hq]
    exact hage

/-- When the statistics that were overtaken are kept and have become too old, later reports reach
again what the faster report gave. -/
theorem later_reports_reach_once_old :
    let shard : HostedShard := .opened ⟨"orders", 0⟩ ⟨0, 65535⟩
      (.opened (.empty 8 60000) .unknown) .memory .told ⟨[]⟩ (.ofSeconds 1)
    let slow : Statistics := ⟨0, 0, none, -1⟩
    let fast : Statistics := ⟨1, 0, none, -1⟩
    let q : Inquiry := ⟨{ shard.count .index with reported := some (slow, 0) }, 1000000000,
      [.done slow, .done fast]⟩
    (start shard 0).Course q ∧ q.reports[1]? = some (.done fast) ∧ q.Guarantees fast := by
  intro shard slow fast q
  have hq : (start shard 0).Course q :=
    (course_of_run _ (run_overtaking shard 0)).trans
      (course_of_run [.report 0 none, .report 0 none, .wait 1000000000] rfl)
  refine ⟨hq, rfl, ((later_reports_reach_iff shard 0).1 q hq 1 fast rfl).1.mpr ⟨?_, ?_⟩⟩
  · intro t computed hkept
    cases hkept
    exact .inr (by decide)
  · refine .inr fun i t hi => ?_
    match i, hi with
    | 0, hi | 1, hi | _ + 2, hi => simp [q] at hi

/-- A report that is asked for after another one has ended gives less than that one. -/
theorem later_report_falls_behind :
    let shard : HostedShard := .opened ⟨"orders", 0⟩ ⟨0, 65535⟩
      (.opened (.empty 8 60000) .unknown) .memory .told ⟨[]⟩ (.ofSeconds 1)
    ∃ q q', (start shard 0).Course q ∧ q.Course q' ∧
      q.reports[1]? = some (.done ⟨1, 0, none, -1⟩) ∧ q.reports[2]? = none ∧
      q'.reports[2]? = some (.done ⟨0, 0, none, -1⟩) := by
  intro shard
  have hfast := course_of_run _ (run_overtaking shard 0)
  exact ⟨_, ⟨{ shard.count .index with reported := some (shard.counters, 0) }, 0,
      [.done shard.counters, .done (shard.count .index).counters, .done shard.counters]⟩, hfast,
    course_of_run [.report 0 none, .report 0 none, .ask, .report 2 none] rfl, rfl, rfl, rfl⟩

end Inquiry

end ShardKeeper
