import Mathlib.Logic.Relation
import ShardKeeper.Proofs.Node.Aside
import ShardKeeper.Proofs.Reclaim.Desk

/-!
# The course of the reclaims

All that can happen to the reclaims of a node, step by step and in any order:
an activity makes its next step, a reclaim is asked for, or something happens
aside from the reclaims.  A step of a reclaim is one of its saga, or the end of
the removal that the saga waits for.

## Main definitions

* `Node.Step`, `Node.Course` — one step, and any number of them.
* `Node.SagaStep` — what a step of a reclaim does.
* `Node.ReclaimsSoundly` — the invariant.

## Main results

* `Node.Step.cases` — every step is of one of three kinds.
* `Node.ReclaimsSoundly.course` — the invariant holds throughout.
-/

namespace ShardKeeper

/-- No removal begins with the end of another. -/
theorem Removals.begun_finish (r : Removals) (tree : FileTree) (path : Path) :
    (r.finish tree path).1.begun = r.begun := by
  unfold finish
  dsimp only
  split
  · rfl
  · split <;> rfl

namespace Node

/-- One step of a node. -/
inductive Step : Node → Node → Prop where
  | act {n m : Node} {number : Nat} (h : n.move? number = some m) : Step n m
  | reclaim (n : Node) (key : ReclaimKey) : Step n (n.reclaim key).1
  | aside {n m : Node} (h : n.Aside m) : Step n m

/-- Any number of steps. -/
abbrev Course : Node → Node → Prop := Relation.ReflTransGen Step

variable {n m : Node} {number saga : Nat} {ticket : TaskTicket}

/-- The next step of an activity that can make one. -/
theorem Step.next (h : (n.move? number).isSome = true) : n.Step ((n.move? number).getD n) := by
  obtain ⟨m, hm⟩ := Option.isSome_iff_exists.mp h
  rw [hm]
  exact .act hm

/-- A node that is left to itself makes such steps. -/
theorem Step.of_act? (h : Timed.act? n = some m) : n.Step m := by
  rcases Option.or_eq_some_iff.mp h with hattend | ⟨-, hmove⟩
  · obtain ⟨group, hgroup, rfl⟩ := Option.map_eq_some_iff.mp hattend
    obtain ⟨board, -, rfl⟩ := Option.map_eq_some_iff.mp hgroup
    exact .aside (.of_eq rfl rfl rfl rfl rfl)
  · obtain ⟨number, -, hmove⟩ := List.exists_of_findSome?_eq_some hmove
    exact .act hmove

/-- Asking for the removal of a table is a course of steps. -/
theorem course_deleteTable (n : Node) (table : String) : n.Course (n.deleteTable table).1 :=
  .tail (.single (.aside (aside_closeShards n _))) (.reclaim _ _)

theorem course_deleteShard (n : Node) (id : ShardId) (count : Nat) :
    n.Course (n.deleteShard id count).1 := by
  rw [deleteShard]
  split
  · exact .refl
  · exact .tail (.single (.aside (aside_closeShard n id))) (.reclaim _ _)

/-! ### One step of a reclaim -/

/-- A step of the saga `s`, which becomes `s'`: a step of its own, which begins a removal if it says
so, or the end of the removal under way. -/
inductive SagaStep (n m : Node) (ticket : TaskTicket) (s s' : Saga) : Prop where
  | move {effect : SagaEffect}
      (hmoves : Saga.Moves n.desk.plan n.clock (n.group.isCancelled ticket.token) n.feed.catalog
        s s' effect)
      (hbegun : effect ≠ .remove → m.removals.begun = n.removals.begun)
      (hremove : effect = .remove → ∃ held, m.removals.begun =
        n.removals.begun ++ [⟨s.key.path n.layout, n.clock, held⟩])
  | finish {error : Option String} (hphase : s.phase = .removing)
      (heq : s' = s.afterRemoval n.desk.plan n.clock error)
      (hbegun : m.removals.begun = n.removals.begun)

namespace SagaStep

variable {s s' : Saga}

theorem isOver_eq_false (h : SagaStep n m ticket s s') : s.isOver = false := by
  cases h with
  | move hmoves => exact hmoves.isOver_eq_false
  | finish hphase => simp [Saga.isOver, hphase, SagaPhase.outcome?]

theorem key_eq (h : SagaStep n m ticket s s') : s'.key = s.key := by
  cases h with
  | move hmoves => exact hmoves.key_eq
  | finish hphase heq =>
      rw [heq]
      exact s.key_afterRemoval ..

end SagaStep

/-- What a step of a reclaim does to its node. -/
structure Moved (n m : Node) (number : Nat) (ticket : TaskTicket) (s s' : Saga) : Prop where
  saga : n.desk.sagas[number]? = some s
  step : SagaStep n m ticket s s'
  desk : m.desk = n.desk.update number s'
  clock : m.clock = n.clock
  activities : m.activities = n.activities
  cancellation : m.group.cancellation = n.group.cancellation

theorem Moved.finish {s s' : Saga} (h : n.Moved m saga ticket s s') (ticket' : TaskTicket) :
    n.Moved (m.finish ticket') saga ticket s s' where
  saga := h.saga
  step := by
    cases h.step with
    | move hmoves hbegun hremove => exact .move hmoves hbegun hremove
    | finish hphase heq hbegun => exact .finish hphase heq hbegun
  desk := h.desk
  clock := h.clock
  activities := h.activities
  cancellation := h.cancellation

theorem moved_of_stepSaga? {s : Saga} (hs : n.desk.sagas[saga]? = some s)
    (h : n.stepSaga? saga s ticket = some m) : ∃ s', n.Moved m saga ticket s s' := by
  unfold stepSaga? at h
  split at h
  · rename_i hphase
    obtain rfl := Option.some.inj h
    exact ⟨_, hs, .finish hphase rfl (n.removals.begun_finish ..),
      n.desk.finishRemoval_of_removing hs hphase _, rfl, rfl, rfl⟩
  · obtain ⟨⟨desk, effect⟩, hmove, heq⟩ := Option.bind_eq_some_iff.mp h
    obtain ⟨t, s', ht, hmoves, rfl⟩ := ReclaimDesk.move?_eq_some hmove
    obtain rfl : s = t := Option.some.inj (hs.symm.trans ht)
    refine ⟨s', ?_⟩
    cases effect with
    | nothing =>
        obtain rfl := Option.some.inj heq
        exact ⟨hs, .move hmoves (fun _ => rfl) (by simp), rfl, rfl, rfl, rfl⟩
    | request =>
        obtain rfl := Option.some.inj heq
        exact ⟨hs, .move hmoves (fun _ => rfl) (by simp), rfl, rfl, rfl, rfl⟩
    | remove =>
        obtain rfl := Option.some.inj heq
        exact ⟨hs, .move hmoves (by simp) (fun _ => ⟨_, rfl⟩), rfl, rfl, rfl, rfl⟩

theorem moved_of_moveReclaiming? (h : n.moveReclaiming? saga ticket = some m) :
    ∃ s s', n.Moved m saga ticket s s' := by
  obtain ⟨s, hs, hrest⟩ := Option.bind_eq_some_iff.mp h
  obtain ⟨r, hr, heq⟩ := Option.bind_eq_some_iff.mp hrest
  obtain ⟨s', hmoved⟩ := moved_of_stepSaga? hs hr
  obtain rfl := Option.some.inj heq
  refine ⟨s, s', ?_⟩
  split
  · exact hmoved.finish ticket
  · exact hmoved

/-! ### All steps -/

/-- What a new reclaim of a key does to its node. -/
structure Asked (n m : Node) (key : ReclaimKey) (saga : Nat) (ticket : TaskTicket) : Prop where
  desk : n.desk.request key = some (m.desk, saga)
  clock : m.clock = n.clock
  begun : m.removals.begun = n.removals.begun
  activities : m.activities = n.activities ++ [.reclaiming saga ticket]
  cancellation : m.group.cancellation = n.group.cancellation

theorem reclaim_cases (n : Node) (key : ReclaimKey) :
    (n.reclaim key).1 = n ∨ ∃ saga ticket, n.Asked (n.reclaim key).1 key saga ticket := by
  rw [reclaim]
  split
  · exact Or.inl rfl
  · rename_i desk saga hrequest
    exact Or.inr ⟨saga, _, hrequest, rfl, rfl, rfl, rfl⟩

/-- What an activity does is aside from the reclaims or a step of one. -/
theorem aside_or_moved_of_move? (h : n.move? number = some m) :
    n.Aside m ∨ ∃ saga ticket s s', n.activities[number]? = some (.reclaiming saga ticket) ∧
      n.Moved m saga ticket s s' := by
  obtain ⟨a, ha, hrest⟩ := Option.bind_eq_some_iff.mp h
  cases hreclaiming : a.isReclaiming with
  | false => exact Or.inl (aside_of_move? ha hreclaiming h)
  | true =>
      cases a with
      | reclaiming saga ticket =>
          obtain ⟨s, s', hmoved⟩ := moved_of_moveReclaiming? hrest
          exact Or.inr ⟨saga, ticket, s, s', ha, hmoved⟩
      | _ => cases hreclaiming

/-- **Every step is aside from the reclaims, asks for one, or is a step of one.** -/
theorem Step.cases (h : n.Step m) :
    n.Aside m ∨ (∃ key saga ticket, n.Asked m key saga ticket) ∨
      ∃ number saga ticket s s', n.activities[number]? = some (.reclaiming saga ticket) ∧
        n.move? number = some m ∧ n.Moved m saga ticket s s' := by
  cases h with
  | aside haside => exact Or.inl haside
  | reclaim key =>
      rcases n.reclaim_cases key with heq | ⟨saga, ticket, hasked⟩
      · rw [heq]
        exact Or.inl (.refl n)
      · exact Or.inr (Or.inl ⟨key, saga, ticket, hasked⟩)
  | act hmove =>
      rename_i number
      rcases aside_or_moved_of_move? hmove with haside | ⟨saga, ticket, s, s', ha, hmoved⟩
      · exact Or.inl haside
      · exact Or.inr (Or.inr ⟨number, saga, ticket, s, s', ha, hmove, hmoved⟩)

theorem Step.clock_le (h : n.Step m) : n.clock ≤ m.clock := by
  rcases h.cases with haside | ⟨key, saga, ticket, hasked⟩ | ⟨_, _, _, _, _, -, -, hmoved⟩
  · exact haside.clock
  · exact Nat.le_of_eq hasked.clock.symm
  · exact Nat.le_of_eq hmoved.clock.symm

/-- A token that was cancelled stays cancelled. -/
theorem Step.isCancelled (h : n.Step m) {t : Token} (ht : n.group.isCancelled t = true) :
    m.group.isCancelled t = true := by
  rcases h.cases with haside | ⟨key, saga, ticket, hasked⟩ | ⟨_, _, _, _, _, -, -, hmoved⟩
  · exact haside.cancelled t ht
  · rwa [TaskGroup.isCancelled, hasked.cancellation]
  · rwa [TaskGroup.isCancelled, hmoved.cancellation]

theorem Step.plan_eq (h : n.Step m) : m.desk.plan = n.desk.plan := by
  rcases h.cases with haside | ⟨key, saga, ticket, hasked⟩ | ⟨_, _, _, _, _, -, -, hmoved⟩
  · rw [haside.desk]
  · obtain ⟨locks, -, -, hdesk⟩ := ReclaimDesk.request_eq_some hasked.desk
    rw [hdesk]
  · rw [hmoved.desk]
    rfl

theorem Course.isCancelled (h : n.Course m) {t : Token} (ht : n.group.isCancelled t = true) :
    m.group.isCancelled t = true := by
  induction h with
  | refl => exact ht
  | tail _ hstep ih => exact hstep.isCancelled ih

theorem Course.plan_eq (h : n.Course m) : m.desk.plan = n.desk.plan := by
  induction h with
  | refl => rfl
  | tail _ hstep ih => exact hstep.plan_eq.trans ih

/-! ### The invariant -/

/-- What every course keeps of the reclaims: keys are held rightly, each saga waits for its own
condition, and each is attended to by one activity at most. -/
structure ReclaimsSoundly (n : Node) : Prop where
  desk : n.desk.Sound
  waits : ∀ s ∈ n.desk.sagas, s.WaitsRightly n.desk.plan n.clock
  known : ∀ (number saga : Nat) (ticket : TaskTicket),
    n.activities[number]? = some (.reclaiming saga ticket) → saga < n.desk.sagas.length
  own : ∀ (i j saga : Nat) (t u : TaskTicket), n.activities[i]? = some (.reclaiming saga t) →
    n.activities[j]? = some (.reclaiming saga u) → i = j

/-- A node at which no reclaim was ever asked for. -/
structure BeforeReclaims (n : Node) : Prop where
  desk : ∃ plan, n.desk = .opened plan
  activities : ∀ a ∈ n.activities, a.isReclaiming = false

theorem beforeReclaims_starting (layout : Layout) (files : FileTree) (polling : PollSettings)
    (backoff : BackoffPolicy) (reclaim : ReclaimSettings) :
    (starting layout files polling backoff reclaim).BeforeReclaims :=
  ⟨⟨_, rfl⟩, fun _ ha => absurd ha List.not_mem_nil⟩

namespace ReclaimsSoundly

theorem of_beforeReclaims (h : n.BeforeReclaims) : n.ReclaimsSoundly := by
  obtain ⟨⟨plan, hdesk⟩, hactivities⟩ := h
  have hnone : ∀ (number saga : Nat) (ticket : TaskTicket),
      n.activities[number]? ≠ some (.reclaiming saga ticket) := by
    intro number saga ticket hsome
    cases hactivities _ (List.mem_of_getElem? hsome)
  refine ⟨?_, ?_, fun number saga ticket h => absurd h (hnone number saga ticket),
    fun i _ saga t _ h _ => absurd h (hnone i saga t)⟩
  · rw [hdesk]
    exact .opened plan
  · rw [hdesk]
    exact fun s hs => absurd hs List.not_mem_nil

theorem aside (h : n.ReclaimsSoundly) (haside : n.Aside m) : m.ReclaimsSoundly where
  desk := by
    rw [haside.desk]
    exact h.desk
  waits := by
    rw [haside.desk]
    exact fun s hs => (h.waits s hs).later haside.clock
  known := by
    intro number saga ticket hactivity
    rw [haside.desk]
    exact h.known number saga ticket ((haside.reclaiming number _ rfl).mp hactivity)
  own := fun i j saga t u ht hu => h.own i j saga t u ((haside.reclaiming i _ rfl).mp ht)
    ((haside.reclaiming j _ rfl).mp hu)

theorem asked {key : ReclaimKey} (h : n.ReclaimsSoundly) (hasked : n.Asked m key saga ticket) :
    m.ReclaimsSoundly := by
  obtain ⟨locks, -, hsaga, hdesk⟩ := ReclaimDesk.request_eq_some hasked.desk
  have hactivity : ∀ {i k : Nat} {t : TaskTicket},
      m.activities[i]? = some (.reclaiming k t) ↔
        (i = n.activities.length ∧ .reclaiming k t = Activity.reclaiming saga ticket) ∨
          n.activities[i]? = some (.reclaiming k t) := by
    intro i k t
    rw [hasked.activities]
    exact getElem?_concat_eq_some_iff
  refine ⟨h.desk.request hasked.desk, ?_, ?_, ?_⟩
  · rw [hasked.clock, hdesk]
    intro s hs
    rcases List.mem_append.mp hs with hold | hnew
    · exact h.waits s hold
    · rw [List.mem_singleton.mp hnew]
      exact .of_not_looking (by simp [Saga.ofKey])
  · intro i k t hi
    have hlength : m.desk.sagas.length = n.desk.sagas.length + 1 := by
      rw [hdesk]
      simp
    rw [hlength]
    rcases hactivity.mp hi with ⟨-, heq⟩ | hold
    · cases heq
      omega
    · exact Nat.lt_succ_of_lt (h.known i k t hold)
  · -- the new saga has a number that no activity has attended to before
    intro i j k t u hi hj
    rcases hactivity.mp hi with ⟨hinew, hieq⟩ | hiold
    · rcases hactivity.mp hj with ⟨hjnew, -⟩ | hjold
      · exact hinew.trans hjnew.symm
      · cases hieq
        exact absurd (h.known j saga u hjold) (by omega)
    · rcases hactivity.mp hj with ⟨-, hjeq⟩ | hjold
      · cases hjeq
        exact absurd (h.known i saga t hiold) (by omega)
      · exact h.own i j k t u hiold hjold

theorem moved {s s' : Saga} (h : n.ReclaimsSoundly) (hmoved : n.Moved m saga ticket s s') :
    m.ReclaimsSoundly := by
  have hs := h.waits s (List.mem_of_getElem? hmoved.saga)
  have hs' : s'.WaitsRightly n.desk.plan n.clock := by
    cases hmoved.step with
    | move hmoves => exact hs.move hmoves
    | finish _ heq =>
        rw [heq]
        exact Saga.WaitsRightly.afterRemoval n.desk.plan n.clock s _
  refine ⟨?_, ?_, ?_, ?_⟩
  · rw [hmoved.desk]
    exact h.desk.update hmoved.saga hmoved.step.isOver_eq_false hmoved.step.key_eq
  · rw [hmoved.desk, hmoved.clock]
    intro t ht
    rcases List.mem_or_eq_of_mem_set ht with hold | rfl
    · exact h.waits t hold
    · exact hs'
  · rw [hmoved.activities, hmoved.desk]
    intro i k t hi
    simpa [ReclaimDesk.update] using h.known i k t hi
  · rw [hmoved.activities]
    exact h.own

theorem step (h : n.ReclaimsSoundly) (hstep : n.Step m) : m.ReclaimsSoundly := by
  rcases hstep.cases with haside | ⟨key, saga, ticket, hasked⟩ | ⟨_, _, _, _, _, -, -, hmoved⟩
  · exact h.aside haside
  · exact h.asked hasked
  · exact h.moved hmoved

theorem course (h : n.ReclaimsSoundly) (hcourse : n.Course m) : m.ReclaimsSoundly := by
  induction hcourse with
  | refl => exact h
  | tail _ hstep ih => exact ih.step hstep

end ReclaimsSoundly

end Node

end ShardKeeper
