import ShardKeeper.Proofs.Task.Board
import ShardKeeper.Task.Workplace

/-!
# What the board of a workplace lists

A task is put on the board when it is started, and taken down in the same step in
which its job comes to its own end.  So the board lists what was started and has
not come to its end, whatever else happens at the workplace.  A job that fails, or
is stopped from outside, never comes to its own end.

## Main definitions

* `Job.isFinished` — whether a job has come to its own end.
* `Workplace.Step`, `Workplace.Course` — what can happen at a workplace, and what that starts.
* `Workplace.Accounted` — the board, by the tasks that were started and by their jobs.

## Main results

* `Workplace.Accounted.step` — whatever happens keeps the account.
* `Workplace.Course.accounted` — so does any number of steps.
* `Workplace.Accounted.mem_listing_iff` — what is listed.
* `Workplace.Accounted.size_eq` — how many tasks that are.
-/

namespace ShardKeeper

/-- Whether a job has come to its own end. -/
def Job.isFinished (j : Job) : Bool := j.phase.ending?.any JobEnding.isRegular

theorem Job.isFinished_eq_false {j : Job} (h : j.phase.ending? = none) : j.isFinished = false := by
  rw [isFinished, h]
  rfl

/-- A job that has ended takes no step. -/
theorem JobPhase.ending?_of_next? {plan : JobPlan} {phase phase' : JobPhase} {now : Instant}
    {cancelled : Bool} (h : phase.next? plan now cancelled = some phase') :
    phase.ending? = none := by
  cases phase with
  | ended => cases h
  | _ => rfl

namespace Workplace

variable {w m : Workplace} {started new : List TaskRecord} {j : Job} {place id : Nat}

/-- What can happen at a workplace, and the tasks that are started. -/
inductive Step (w : Workplace) : List TaskRecord → Workplace → Prop where
  | start (name : String) (kind : TaskClass) (plan : JobPlan) :
      Step w [⟨w.group.lastId + 1, name, kind⟩] (w.start name kind plan).1
  | move {place : Nat} {m : Workplace} (h : w.move? place = some m) : Step w [] m
  | abort (place : Nat) : Step w [] (w.abort place)
  | cancel (t : Token) : Step w [] { w with group := w.group.cancel t }
  | newToken : Step w [] w.newToken.1
  | deriveToken (place : Nat) : Step w [] (w.deriveToken place).1
  | arrive : Step w [] { w with group := { w.group with board := w.group.board.arrive.1 } }
  | attend {waiter : Nat} {board : TaskBoard} (h : w.group.board.attend? waiter = some board) :
      Step w [] { w with group := { w.group with board } }
  | dismiss (waiter : Nat) :
      Step w [] { w with group := { w.group with board := w.group.board.dismiss waiter } }
  /-- Time passes. -/
  | pass {t : Instant} (h : w.clock ≤ t) : Step w [] { w with clock := t }

/-- Any number of steps from an empty workplace, and the tasks that were started. -/
inductive Course : List TaskRecord → Workplace → Prop where
  | empty : Course [] empty
  | step {started new : List TaskRecord} {w m : Workplace} (h : Course started w)
      (hstep : w.Step new m) : Course (started ++ new) m

/-- Steps in which no task is started. -/
theorem Course.next (h : Course started w) (hstep : w.Step [] m) : Course started m := by
  have hnext := h.step hstep
  rwa [List.append_nil] at hnext

/-- Whether the job with a number has come to its own end. -/
def hasFinished (w : Workplace) (id : Nat) : Bool :=
  w.jobs.any fun j => j.ticket.id == id && j.isFinished

/-- The board lists the tasks that were started, less those whose jobs have come to their ends. -/
structure Accounted (started : List TaskRecord) (w : Workplace) : Prop where
  ids : started.map (·.id) = w.jobs.map (·.ticket.id)
  nodup : (started.map (·.id)).Nodup
  issued : ∀ r ∈ started, r.id ≤ w.group.lastId
  records : w.group.board.records = started.filter fun r => !w.hasFinished r.id
  derived : ∀ j ∈ w.jobs, j.ticket.token.isWithin TaskGroup.root = true

theorem accounted_empty : Accounted [] empty where
  ids := rfl
  nodup := List.nodup_nil
  issued _ hr := absurd hr List.not_mem_nil
  records := rfl
  derived _ hj := absurd hj List.not_mem_nil

/-- What leaves the jobs and the tasks on the board alone. -/
theorem Accounted.of_eq (h : Accounted started w) (hjobs : m.jobs = w.jobs)
    (hrecords : m.group.board.records = w.group.board.records)
    (hlast : w.group.lastId ≤ m.group.lastId) : Accounted started m where
  ids := by rw [hjobs, h.ids]
  nodup := h.nodup
  issued r hr := Nat.le_trans (h.issued r hr) hlast
  records := by
    simp only [hrecords, h.records, hasFinished, hjobs]
  derived := by
    rw [hjobs]
    exact h.derived

/-- Numbers are not given out twice. -/
theorem Accounted.notMem_ids (h : Accounted started w) :
    w.group.lastId + 1 ∉ started.map (·.id) := by
  intro hmem
  obtain ⟨r, hr, heq⟩ := List.mem_map.mp hmem
  have hle := h.issued r hr
  omega

theorem Accounted.hasFinished_new (h : Accounted started w) :
    w.hasFinished (w.group.lastId + 1) = false := by
  refine List.any_eq_false.mpr fun j hj hfinished => ?_
  have hid : j.ticket.id = w.group.lastId + 1 := eq_of_beq (Bool.and_eq_true_iff.mp hfinished).1
  refine h.notMem_ids ?_
  rw [h.ids, ← hid]
  exact List.mem_map_of_mem hj

/-- A job that is just started has not come to its end. -/
theorem hasFinished_start (w : Workplace) (name : String) (kind : TaskClass) (plan : JobPlan)
    (id : Nat) : (w.start name kind plan).1.hasFinished id = w.hasFinished id := by
  show (w.jobs ++ [_]).any _ = _
  rw [List.any_append, List.any_cons, List.any_nil, Bool.or_false]
  exact (congrArg (w.hasFinished id || ·) (Bool.and_false _)).trans (Bool.or_false _)

theorem Accounted.start (h : Accounted started w) (name : String) (kind : TaskClass)
    (plan : JobPlan) :
    Accounted (started ++ [⟨w.group.lastId + 1, name, kind⟩]) (w.start name kind plan).1 := by
  have hboard : w.group.lastId + 1 ∉ w.group.board.records.map (·.id) := by
    rw [h.records]
    exact fun hmem => h.notMem_ids (List.map_subset _ (List.filter_subset_self _) hmem)
  refine ⟨?_, ?_, ?_, ?_, ?_⟩
  · show _ = (w.jobs ++ [_]).map _
    rw [List.map_append, List.map_append, h.ids]
    rfl
  · rw [List.map_append]
    exact List.nodup_append.mpr ⟨h.nodup, List.nodup_singleton _, fun id hid id' hid' => by
      rw [List.mem_singleton.mp hid']
      rintro rfl
      exact h.notMem_ids hid⟩
  · intro r hr
    rcases List.mem_append.mp hr with hr | hr
    · exact Nat.le_succ_of_le (h.issued r hr)
    · rw [List.mem_singleton.mp hr]
      exact Nat.le_refl _
  · show (w.group.board.put _).records = _
    rw [TaskBoard.put_of_not_has hboard]
    simp only [hasFinished_start, List.filter_append, h.records]
    rw [List.filter_singleton, h.hasFinished_new]
    rfl
  · intro j hj
    rcases List.mem_append.mp hj with hj | hj
    · exact h.derived j hj
    · rw [List.mem_singleton.mp hj]
      exact Token.isWithin_derive ..

/-- A job that has not come to its end goes on, and is taken down when it comes to its end. -/
theorem Accounted.goesOn (h : Accounted started w) (hj : w.jobs[place]? = some j)
    (hunfinished : j.isFinished = false) {phase : JobPhase}
    (hjobs : m.jobs = w.jobs.set place { j with phase })
    (hrecords : m.group.board.records =
      if (Job.isFinished { j with phase }) = true then
        w.group.board.records.filter (·.id != j.ticket.id)
      else w.group.board.records)
    (hlast : m.group.lastId = w.group.lastId) : Accounted started m := by
  have hfinished (id : Nat) : m.hasFinished id =
      (w.hasFinished id || (j.ticket.id == id && Job.isFinished { j with phase })) := by
    rw [hasFinished, hjobs, any_set hj (by rw [hunfinished, Bool.and_false])]
    rfl
  refine ⟨?_, h.nodup, hlast ▸ h.issued, ?_, ?_⟩
  · rw [hjobs, List.map_set, h.ids]
    refine (set_eq_self ?_).symm
    rw [List.getElem?_map, hj]
    rfl
  · rw [hrecords, h.records]
    simp only [hfinished]
    split
    · rename_i hends
      rw [List.filter_filter]
      refine List.filter_congr fun r _ => ?_
      rw [hends, Bool.and_true, Bool.not_or, Bool.and_comm, bne, BEq.comm]
    · rename_i hgoes
      rw [Bool.not_eq_true] at hgoes
      simp only [hgoes, Bool.and_false, Bool.or_false]
  · intro k hk
    rw [hjobs] at hk
    rcases List.mem_or_eq_of_mem_set hk with hk | rfl
    · exact h.derived k hk
    · exact h.derived j (List.mem_of_getElem? hj)

/-- The next step of a job, in its parts. -/
theorem move?_eq_some (h : w.move? place = some m) :
    ∃ j phase, w.jobs[place]? = some j ∧
      j.phase.next? j.plan w.clock (w.group.isCancelled j.ticket.token) = some phase ∧
      m = { w with
        jobs := w.jobs.set place { j with phase }
        group := if (Job.isFinished { j with phase }) = true then w.group.finish j.ticket.id
          else w.group } := by
  obtain ⟨j, hj, hrest⟩ := Option.bind_eq_some_iff.mp h
  obtain ⟨phase, hphase, heq⟩ := Option.bind_eq_some_iff.mp hrest
  exact ⟨j, phase, hj, hphase, (Option.some.inj heq).symm⟩

/-- **Whatever happens keeps the account.** -/
theorem Accounted.step (h : Accounted started w) (hstep : w.Step new m) :
    Accounted (started ++ new) m := by
  cases hstep with
  | start name kind plan => exact h.start name kind plan
  | move hmove =>
      rw [List.append_nil]
      obtain ⟨j, phase, hj, hphase, rfl⟩ := move?_eq_some hmove
      have hunfinished := Job.isFinished_eq_false (JobPhase.ending?_of_next? hphase)
      refine h.goesOn hj hunfinished rfl ?_ ?_
      · dsimp only
        split
        · exact TaskBoard.records_remove ..
        · rfl
      · dsimp only
        split <;> rfl
  | abort place =>
      rw [List.append_nil]
      unfold abort
      split
      · exact h
      · rename_i j hj
        split
        · exact h
        · rename_i hgoes
          have hunfinished := Job.isFinished_eq_false (Option.not_isSome_iff_eq_none.mp hgoes)
          exact h.goesOn hj hunfinished rfl rfl rfl
  | cancel =>
      rw [List.append_nil]
      exact h.of_eq rfl rfl (Nat.le_refl _)
  | newToken =>
      rw [List.append_nil]
      exact h.of_eq rfl rfl (Nat.le_succ _)
  | deriveToken place =>
      rw [List.append_nil]
      unfold deriveToken
      split
      · exact h
      · exact h.of_eq rfl rfl (Nat.le_refl _)
  | arrive =>
      rw [List.append_nil]
      exact h.of_eq rfl rfl (Nat.le_refl _)
  | attend hattend =>
      rw [List.append_nil]
      obtain ⟨_, _, -, -, rfl⟩ := TaskBoard.attend?_eq_some hattend
      exact h.of_eq rfl rfl (Nat.le_refl _)
  | dismiss =>
      rw [List.append_nil]
      exact h.of_eq rfl rfl (Nat.le_refl _)
  | pass =>
      rw [List.append_nil]
      exact h.of_eq rfl rfl (Nat.le_refl _)

theorem Course.accounted (h : Course started w) : Accounted started w := by
  induction h with
  | empty => exact accounted_empty
  | step _ hstep ih => exact ih.step hstep

/-! ### What is listed -/

/-- **What the board lists.** -/
theorem Accounted.mem_listing_iff (h : Accounted started w) {r : TaskRecord} :
    r ∈ w.group.board.listing ↔ r ∈ started ∧ w.hasFinished r.id = false := by
  rw [w.group.board.listing_perm.mem_iff, h.records, List.mem_filter, Bool.not_eq_true']

/-- No two tasks on the board have the same number. -/
theorem Accounted.nodup_records (h : Accounted started w) :
    (w.group.board.records.map (·.id)).Nodup := by
  rw [h.records]
  exact h.nodup.sublist (List.filter_sublist.map _)

/-- No other job has the number of a job. -/
theorem Accounted.hasFinished_eq (h : Accounted started w) (hj : j ∈ w.jobs) :
    w.hasFinished j.ticket.id = j.isFinished := by
  have hids : (w.jobs.map (·.ticket.id)).Nodup := h.ids ▸ h.nodup
  cases hfinished : j.isFinished with
  | true =>
      refine List.any_eq_true.mpr ⟨j, hj, ?_⟩
      rw [hfinished, Bool.and_true]
      exact beq_self_eq_true _
  | false =>
      refine List.any_eq_false.mpr fun k hk hends => ?_
      obtain ⟨hid, hends⟩ := Bool.and_eq_true_iff.mp hends
      rw [List.inj_on_of_nodup_map hids hk hj (eq_of_beq hid), hfinished] at hends
      cases hends

/-- **How many tasks are on the board**: as many as there are jobs that have not come to their own
ends. -/
theorem Accounted.size_eq (h : Accounted started w) :
    w.group.board.size = w.jobs.countP fun j => !j.isFinished := by
  have hnumbers : w.group.board.size =
      (started.map (·.id)).countP fun id => !w.hasFinished id := by
    rw [TaskBoard.size, h.records, List.countP_map, List.countP_eq_length_filter]
    rfl
  rw [hnumbers, h.ids, List.countP_map]
  refine List.countP_congr fun j hj => ?_
  rw [Function.comp_apply, h.hasFinished_eq hj]

end Workplace

end ShardKeeper
