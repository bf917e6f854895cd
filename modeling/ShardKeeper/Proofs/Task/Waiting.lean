import ShardKeeper.Proofs.Task.Board

/-!
# Those who wait, in whatever order things happen

Tasks come and go while others wait for the last of them to end, and nobody
waits for anybody else to take a step.  Whoever sleeps was told exactly if the
board was emptied since it last asked, even if tasks were put up again; if it was
not told, there are tasks on the board.

Seeing a task and going to sleep are two steps with room for others between
them.  A sleeper in the sense of the board is whoever has taken the first of
them, so what is said of sleepers holds on both sides of the second.

## Main definitions

* `TaskBoard.Act`, `TaskBoard.after?` — what can happen on a board, and what becomes of it.
* `TaskBoard.Course` — a board and all that has happened on it.
* `TaskBoard.EmptiedSince` — the board was emptied since somebody last asked to be told.
* `TaskBoard.HasSeenNone` — the last step of somebody was a look at a board without tasks.

## Main results

* `TaskBoard.notices_of_after?` — all that somebody can notice of what happens.
* `TaskBoard.Course.hears` — what is known of one who waits.
* `TaskBoard.sleepers_hear_of_the_end` — who sleeps, who was told and who is done, after any course.
-/

namespace ShardKeeper

namespace TaskBoard

/-! ### Courses -/

/-- What can happen on a board. -/
inductive Act where
  /-- A task is put up, or put in the place of another one. -/
  | put (record : TaskRecord)
  | remove (id : Nat)
  /-- Somebody comes to wait. -/
  | arrive
  /-- Somebody asks to be told, looks, or wakes because it was told. -/
  | attend (waiter : Nat)
  /-- Somebody who has seen a task goes to sleep. It can be told from the moment it asked, so this
  makes no difference to the board. -/
  | park (waiter : Nat)
  /-- Somebody does not wait any longer. -/
  | dismiss (waiter : Nat)

/-- The board after something has happened, if it can happen. -/
def after? (b : TaskBoard) : Act → Option TaskBoard
  | .put record => some (b.put record)
  | .remove id => some (b.remove id).1
  | .arrive => some b.arrive.1
  | .attend waiter => b.attend? waiter
  | .park waiter =>
    match b.waiters[waiter]? with
    | some (.asleep _) => some b
    | _ => none
  | .dismiss waiter => some (b.dismiss waiter)

/-- Something that has happened, and the board it happened on. -/
structure Moment where
  before : TaskBoard
  act : Act

/-- A board and all that has happened on it, the latest first. Whatever can happen may be next. -/
inductive Course : List Moment → TaskBoard → Prop where
  | start : Course [] .empty
  | next {past : List Moment} {b b' : TaskBoard} (h : Course past b) (act : Act)
      (hafter : b.after? act = some b') : Course (⟨b, act⟩ :: past) b'

/-- The last task was taken down. -/
def Moment.Empties (m : Moment) : Prop :=
  ∃ id, m.act = .remove id ∧ m.before.isIdle = false ∧ (m.before.remove id).1.isIdle = true

/-- Somebody asked to be told. -/
def Moment.Asks (m : Moment) (waiter : Nat) : Prop :=
  m.act = .attend waiter ∧ m.before.waiters[waiter]? = some .arriving

/-- The board was emptied since somebody last asked to be told. -/
def EmptiedSince (waiter : Nat) (past : List Moment) : Prop :=
  ∃ recent m older, past = recent ++ m :: older ∧ m.Empties ∧ ∀ n ∈ recent, ¬n.Asks waiter

/-- The last step of somebody was a look at a board without tasks. -/
def HasSeenNone (waiter : Nat) (past : List Moment) : Prop :=
  ∃ recent m older told, past = recent ++ m :: older ∧ m.act = .attend waiter ∧
    m.before.waiters[waiter]? = some (.listening told) ∧ m.before.isIdle = true ∧
    ∀ n ∈ recent, n.act ≠ .attend waiter

variable {b b' : TaskBoard} {act : Act} {past : List Moment} {m : Moment} {waiter : Nat}
variable {v v' : IdleWaiter}

/-! ### What somebody notices -/

/-- What somebody notices of something that happens. -/
inductive Notices (b : TaskBoard) (act : Act) (b' : TaskBoard) (waiter : Nat) : Prop where
  /-- Nothing, and the board is not emptied. -/
  | aside (hwaiter : b'.waiters[waiter]? = b.waiters[waiter]?) (hother : act ≠ .attend waiter)
      (hempties : ¬Moment.Empties ⟨b, act⟩) (hidle : b.isIdle = false → b'.isIdle = false)
  /-- All who have asked are told that the board is empty. -/
  | told (hwaiters : b'.waiters = b.waiters.map IdleWaiter.tell) (hother : act ≠ .attend waiter)
      (hempties : Moment.Empties ⟨b, act⟩)
  /-- It is its own step. -/
  | own {v v' : IdleWaiter} (hact : act = .attend waiter) (hv : b.waiters[waiter]? = some v)
      (hstep : b.step? v = some v') (hv' : b'.waiters[waiter]? = some v')
      (hidle : b'.isIdle = b.isIdle)
  /-- It has just come, or it has gone away. -/
  | outside (hv' : b'.waiters[waiter]? = some .arriving ∨ b'.waiters[waiter]? = some .gone)

/-- Only taking a task down can empty the board. -/
theorem Moment.Empties.exists_remove (h : m.Empties) : ∃ id, m.act = .remove id :=
  let ⟨id, hact, _⟩ := h
  ⟨id, hact⟩

/-- Something that leaves the tasks and all who wait alone. -/
theorem notices_of_same (hother : act ≠ .attend waiter) (hremove : ∀ id, act ≠ .remove id)
    (hwaiter : b'.waiters[waiter]? = b.waiters[waiter]?)
    (hidle : b.isIdle = false → b'.isIdle = false) : Notices b act b' waiter :=
  .aside hwaiter hother (fun hempties => hremove _ hempties.exists_remove.choose_spec) hidle

theorem notices_remove (b : TaskBoard) (id waiter : Nat) :
    Notices b (.remove id) (b.remove id).1 waiter := by
  have hempties : Moment.Empties ⟨b, .remove id⟩ ↔
      b.isIdle = false ∧ (b.remove id).1.isIdle = true := by
    constructor
    · rintro ⟨id', hact, hboth⟩
      cases hact
      exact hboth
    · exact fun hboth => ⟨id, rfl, hboth⟩
  rcases b.remove_cases id with heq | ⟨-, hbusy', heq⟩ | ⟨hbusy, hidle, heq⟩
  · refine .aside (by rw [heq]) (fun hact => by cases hact) (fun hboth => ?_) fun hbusy => ?_
    · rw [hempties, heq] at hboth
      cases hboth.1.symm.trans hboth.2
    · rw [heq]
      exact hbusy
  · refine .aside (by rw [heq]) (fun hact => by cases hact) (fun hboth => ?_) fun _ => hbusy'
    cases hbusy'.symm.trans (hempties.mp hboth).2
  · exact .told heq (fun hact => by cases hact) (hempties.mpr ⟨hbusy, hidle⟩)

/-- **All that somebody can notice** of whatever happens. -/
theorem notices_of_after? (h : b.after? act = some b') (waiter : Nat) :
    Notices b act b' waiter := by
  cases act with
  | put record =>
      obtain rfl := Option.some.inj h
      have hwaiters : (b.put record).waiters = b.waiters := by
        unfold put
        split <;> rfl
      exact notices_of_same (by simp) (by simp) (by rw [hwaiters]) fun _ => b.isIdle_put record
  | remove id =>
      obtain rfl := Option.some.inj h
      exact notices_remove b id waiter
  | arrive =>
      obtain rfl := Option.some.inj h
      rcases eq_or_ne waiter b.waiters.length with rfl | hne
      · exact .outside (.inl List.getElem?_concat_length)
      · refine notices_of_same (by simp) (by simp) ?_ id
        show (b.waiters ++ [.arriving])[waiter]? = _
        rw [List.getElem?_append]
        split
        · rfl
        · rw [List.getElem?_eq_none (by simp; omega), List.getElem?_eq_none (by omega)]
  | attend other =>
      obtain ⟨w, w', hw, hstep, rfl⟩ := attend?_eq_some h
      rcases eq_or_ne waiter other with rfl | hne
      · exact .own rfl hw hstep
          (List.getElem?_set_self (List.getElem?_eq_some_iff.mp hw).1) rfl
      · refine notices_of_same ?_ (by simp) (List.getElem?_set_ne hne.symm) id
        simpa using hne.symm
  | park other =>
      have hsame : b' = b := by
        rw [after?] at h
        split at h
        · exact (Option.some.inj h).symm
        · cases h
      exact notices_of_same (by simp) (by simp) (by rw [hsame]) (by rw [hsame]; exact id)
  | dismiss other =>
      obtain rfl := Option.some.inj h
      have hset : (b.dismiss other).waiters = b.waiters.set other .gone := rfl
      by_cases hgone : waiter = other ∧ waiter < b.waiters.length
      · obtain ⟨rfl, hlt⟩ := hgone
        exact .outside (.inr (List.getElem?_set_self hlt))
      · refine notices_of_same (by simp) (by simp) ?_ id
        rw [hset, List.getElem?_set]
        split
        · rw [if_neg (by omega), List.getElem?_eq_none (by omega)]
        · rfl

/-! ### The past of one who waits -/

/-- What has emptied the board has done so since anybody asked. -/
theorem emptiedSince_of_empties (h : m.Empties) : EmptiedSince waiter (m :: past) :=
  ⟨[], m, past, rfl, h, fun _ hn => absurd hn List.not_mem_nil⟩

/-- Whether the board was emptied since somebody asked does not depend on anything else. -/
theorem emptiedSince_cons_iff (hempties : ¬m.Empties) :
    EmptiedSince waiter (m :: past) ↔ ¬m.Asks waiter ∧ EmptiedSince waiter past := by
  constructor
  · rintro ⟨recent, e, older, hpast, he, hrecent⟩
    cases recent with
    | nil =>
        obtain ⟨rfl, -⟩ := List.cons.inj hpast
        exact absurd he hempties
    | cons n recent =>
        obtain ⟨rfl, rfl⟩ := List.cons.inj hpast
        exact ⟨hrecent m List.mem_cons_self, recent, e, older, rfl, he, fun n hn =>
          hrecent n (List.mem_cons_of_mem m hn)⟩
  · rintro ⟨hasks, recent, e, older, rfl, he, hrecent⟩
    refine ⟨m :: recent, e, older, rfl, he, fun n hn => ?_⟩
    rcases List.mem_cons.mp hn with rfl | hn
    · exact hasks
    · exact hrecent n hn

theorem HasSeenNone.cons (h : HasSeenNone waiter past) (hother : m.act ≠ .attend waiter) :
    HasSeenNone waiter (m :: past) := by
  obtain ⟨recent, n, older, told, rfl, hact, hlistens, hidle, hrecent⟩ := h
  refine ⟨m :: recent, n, older, told, rfl, hact, hlistens, hidle, fun k hk => ?_⟩
  rcases List.mem_cons.mp hk with rfl | hk
  · exact hother
  · exact hrecent k hk

/-! ### What is known of one who waits -/

/-- What is known of somebody who waits, on a board that is idle or not. -/
def Hears (isIdle : Bool) (past : List Moment) (waiter : Nat) : IdleWaiter → Prop
  | .listening told => told = true ↔ EmptiedSince waiter past
  | .asleep told => (told = true ↔ EmptiedSince waiter past) ∧ (told = false → isIdle = false)
  | .done => HasSeenNone waiter past
  | .arriving | .gone => True

/-- Something that it does not notice. -/
theorem Hears.aside {isIdle isIdle' : Bool} (h : Hears isIdle past waiter v)
    (hother : m.act ≠ .attend waiter) (hempties : ¬m.Empties)
    (hidle : isIdle = false → isIdle' = false) : Hears isIdle' (m :: past) waiter v := by
  have hsince : EmptiedSince waiter (m :: past) ↔ EmptiedSince waiter past := by
    rw [emptiedSince_cons_iff hempties]
    exact and_iff_right fun hasks => hother hasks.1
  cases v with
  | arriving => trivial
  | listening told => exact h.trans hsince.symm
  | asleep told => exact ⟨h.1.trans hsince.symm, fun htold => hidle (h.2 htold)⟩
  | done => exact h.cons hother
  | gone => trivial

/-- It is told, if it has asked. -/
theorem Hears.tell {isIdle isIdle' : Bool} (h : Hears isIdle past waiter v)
    (hother : m.act ≠ .attend waiter) (hempties : m.Empties) :
    Hears isIdle' (m :: past) waiter v.tell := by
  have hsince : EmptiedSince waiter (m :: past) := emptiedSince_of_empties hempties
  cases v with
  | arriving => trivial
  | listening told => exact iff_of_true rfl hsince
  | asleep told => exact ⟨iff_of_true rfl hsince, fun hfalse => absurd hfalse (by decide)⟩
  | done => exact h.cons hother
  | gone => trivial

/-- **Its own step**: it asks, it looks, or it wakes. -/
theorem Hears.step (h : Hears b.isIdle past waiter v) (hv : b.waiters[waiter]? = some v)
    (hstep : b.step? v = some v') : Hears b.isIdle (⟨b, .attend waiter⟩ :: past) waiter v' := by
  have hempties : ¬Moment.Empties ⟨b, .attend waiter⟩ := fun hempties => by
    cases hempties.exists_remove.choose_spec
  cases v with
  | arriving =>
      -- nothing has happened since it asked
      obtain rfl := Option.some.inj hstep
      show false = true ↔ _
      rw [emptiedSince_cons_iff hempties]
      exact iff_of_false (by decide) fun hsince => hsince.1 ⟨rfl, hv⟩
  | listening told =>
      obtain rfl := Option.some.inj hstep
      split
      · rename_i hidle
        exact ⟨[], _, past, told, rfl, rfl, hv, hidle, fun _ hn => absurd hn List.not_mem_nil⟩
      · rename_i hbusy
        have hasks : ¬Moment.Asks ⟨b, .attend waiter⟩ waiter := fun hasks => by
          cases hv.symm.trans hasks.2
        refine ⟨h.trans ?_, fun _ => Bool.eq_false_iff.mpr hbusy⟩
        rw [emptiedSince_cons_iff hempties]
        exact (and_iff_right hasks).symm
  | asleep told =>
      cases told with
      | false => cases hstep
      | true =>
          obtain rfl := Option.some.inj hstep
          trivial
  | done => cases hstep
  | gone => cases hstep

/-- **What is known of one who waits is so after any course.** -/
theorem Course.hears (h : Course past b) (hv : b.waiters[waiter]? = some v) :
    Hears b.isIdle past waiter v := by
  induction h generalizing waiter v with
  | start => cases hv
  | next _ _ hafter ih =>
      cases notices_of_after? hafter waiter with
      | aside hwaiter hother hempties hidle =>
          exact (ih (hwaiter.symm.trans hv)).aside hother hempties hidle
      | told hwaiters hother hempties =>
          rw [hwaiters, List.getElem?_map] at hv
          obtain ⟨w, hw, rfl⟩ := Option.map_eq_some_iff.mp hv
          exact (ih hw).tell hother hempties
      | own hact hw hstep hw' hidle =>
          obtain rfl := Option.some.inj (hw'.symm.trans hv)
          rw [hact, hidle]
          exact (ih hw).step hw hstep
      | outside hv' =>
          rcases hv' with hv' | hv' <;> obtain rfl := Option.some.inj (hv'.symm.trans hv) <;>
            trivial

/-! ### The end of the last task -/

/-- **Nobody sleeps through the end of the last task**, in whatever order tasks are put up and taken
down and those who wait take their steps:

* whoever sleeps was told exactly if the board was emptied since it last asked to be told, whether
  or not tasks were put up again;
* if it was not told, there is a task on the board;
* it can wake exactly if it was told;
* whoever is done has seen that there was no task, and that was its last step. -/
theorem sleepers_hear_of_the_end (h : Course past b) (waiter : Nat) :
    (∀ told, b.waiters[waiter]? = some (.asleep told) →
      (told = true ↔ EmptiedSince waiter past) ∧
      (told = false → b.isIdle = false) ∧
      (b.attend? waiter).isSome = told) ∧
    (b.waiters[waiter]? = some .done → HasSeenNone waiter past) := by
  refine ⟨fun told hv => ?_, fun hv => h.hears hv⟩
  obtain ⟨htold, hbusy⟩ := h.hears hv
  refine ⟨htold, hbusy, ?_⟩
  rw [attend?, hv]
  cases told <;> rfl

/-- Two wait for a task. It is taken down after one of them has seen it and before that one goes to
sleep; the other one then sees no task, and another task is put up. -/
theorem sleepers_hear_of_the_end_between_two_tasks : ∃ past b, Course past b ∧
    b.isIdle = false ∧ b.waiters = [.asleep true, .done] ∧
    EmptiedSince 0 past ∧ HasSeenNone 1 past := by
  have putUp : Course _ _ := .next .start (.put ⟨1, "reclaim", .reclaim⟩) rfl
  have come : Course _ _ := .next (.next putUp .arrive rfl) .arrive rfl
  have ask : Course _ _ := .next (.next come (.attend 0) rfl) (.attend 1) rfl
  have look : Course _ _ := .next ask (.attend 0) rfl
  have takenDown : Course _ _ := .next look (.remove 1) rfl
  have sleep : Course _ _ := .next takenDown (.park 0) rfl
  have lookAgain : Course _ _ := .next sleep (.attend 1) rfl
  have putUpAgain : Course _ _ := .next lookAgain (.put ⟨2, "reclaim", .reclaim⟩) rfl
  refine ⟨_, _, putUpAgain, rfl, rfl, ?_, ?_⟩
  · exact ((sleepers_hear_of_the_end putUpAgain 0).1 true rfl).1.mp rfl
  · exact (sleepers_hear_of_the_end putUpAgain 1).2 rfl

end TaskBoard

end ShardKeeper
