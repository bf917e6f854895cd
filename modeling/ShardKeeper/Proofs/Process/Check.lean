import ShardKeeper.Process.Watch
import ShardKeeper.Proofs.Process.Table

/-!
# What a check of a role does

A check counts the processes that play a role.  Only when it counts none does it
try to start one, and a process that it started plays the role, so the next check
is content.  Whatever else it finds, it leaves the processes as they are, and the
next check finds the same.

## Main results

* `Role.owns_launched` — a process launched for a role plays it.
* `ProcessTable.check_of_launched`, `check_of_failed` — the two ways of a check that counts none.
* `ProcessTable.check_again` — a check after one that launched nothing.
* `ProcessWatch.check_by_count` — what a check tells, returns and leaves behind.
-/

namespace ShardKeeper

/-! ### Roles that can be started -/

theorem Role.signature_ne_of_isUsable {role : Role} (h : role.isUsable = true) :
    role.signature ≠ "" := by
  intro hempty
  rw [Role.isUsable, hempty] at h
  exact absurd (Bool.and_eq_true_iff.mp h).2 (by decide)

/-- A process launched for a role plays it. -/
theorem Role.owns_launched {role : Role} (h : role.isUsable = true) :
    role.owns (role.signature ++ " --role " ++ role.name) = true := by
  refine Role.owns_iff.mpr ⟨Role.signature_ne_of_isUsable h, ?_⟩
  rw [String.toList_append, String.toList_append, List.append_assoc]
  exact (List.prefix_append _ _).isInfix

namespace ProcessTable

variable {t : ProcessTable} {role : Role} {n : Nat}

theorem length_owned (t : ProcessTable) (role : Role) :
    (t.owned role).length = t.processes.countP (role.owns ·.command) := by
  rw [owned, List.length_map, List.countP_eq_length_filter]

/-! ### Launches -/

/-- The table after a launch that was tried and refused. -/
def afterRefusal (t : ProcessTable) (role : Role) : ProcessTable :=
  { t with launches := t.launches ++ [role.name] }

/-- The process that a launch starts. -/
def newProcess (t : ProcessTable) (role : Role) : RunningProcess :=
  ⟨t.nextPid % pidCount, role.signature ++ " --role " ++ role.name⟩

/-- The table after a launch. -/
def afterLaunch (t : ProcessTable) (role : Role) : ProcessTable :=
  { t.afterRefusal role with
    processes := t.processes ++ [t.newProcess role]
    nextPid := t.nextPid + 1 }

theorem launch_of_refusing (h : t.refusing = true) :
    t.launch role = (t.afterRefusal role, false) := if_pos h

theorem launch_of_willing (h : t.refusing = false) :
    t.launch role = (t.afterLaunch role, true) := if_neg (by rw [h]; exact Bool.false_ne_true)

theorem countP_afterLaunch (h : role.isUsable = true) :
    (t.afterLaunch role).processes.countP (role.owns ·.command) =
      t.processes.countP (role.owns ·.command) + 1 := by
  rw [afterLaunch, List.countP_append, List.countP_singleton, newProcess,
    if_pos (Role.owns_launched h)]

/-- The table after a check that counted no process and could not launch one. -/
def afterFailure (t : ProcessTable) (role : Role) : ProcessTable :=
  if role.isUsable then t.afterRefusal role else t

theorem afterFailure_eq (t : ProcessTable) (role : Role) :
    t.afterFailure role =
      { t with launches := t.launches ++ if role.isUsable then [role.name] else [] } := by
  rw [afterFailure]
  split
  · rfl
  · rw [List.append_nil]

/-! ### Checks -/

theorem check_of_one (h : t.processes.countP (role.owns ·.command) = 1) :
    t.check role = (t, []) := by
  rw [← length_owned] at h
  rw [check, h]
  rfl

theorem check_of_several (h : t.processes.countP (role.owns ·.command) = n + 2) :
    t.check role = (t, [.ambiguous role.name (n + 2)]) := by
  rw [← length_owned] at h
  rw [check, h]
  rfl

/-- A role that nobody plays is started by a launch. -/
theorem start_of_launched (h : t.processes.countP (role.owns ·.command) = 0)
    (husable : role.isUsable = true) (hwilling : t.refusing = false) :
    t.start role = (t.afterLaunch role, .ok .launched) := by
  rw [← length_owned] at h
  rw [start, husable, h]
  simp only [launch_of_willing hwilling, Bool.not_true, Bool.false_eq_true, if_false]

/-- Why a role that nobody plays cannot be started. -/
def startError (role : Role) : StartError :=
  if role.isUsable then .refused role.name else .unusable role.name

theorem start_of_failed (h : t.processes.countP (role.owns ·.command) = 0)
    (hfails : role.isUsable = true → t.refusing = true) :
    t.start role = (t.afterFailure role, .error (startError role)) := by
  rw [← length_owned] at h
  rw [afterFailure, startError, start]
  cases husable : role.isUsable with
  | true =>
      rw [h]
      simp only [launch_of_refusing (hfails husable), Bool.not_true, Bool.false_eq_true, if_false,
        if_true]
  | false => rfl

/-- A check that counts no process launches one, if the role and the machine allow it. -/
theorem check_of_launched (h : t.processes.countP (role.owns ·.command) = 0)
    (husable : role.isUsable = true) (hwilling : t.refusing = false) :
    t.check role = (t.afterLaunch role, [.dead role.name, .restarted role.name]) := by
  have hstart := start_of_launched h husable hwilling
  rw [← length_owned] at h
  simp only [check, h, hstart]

/-- A check that counts no process and cannot launch one tells that it failed. -/
theorem check_of_failed (h : t.processes.countP (role.owns ·.command) = 0)
    (hfails : role.isUsable = true → t.refusing = true) :
    t.check role = (t.afterFailure role,
      [.dead role.name, .restartFailed role.name (startError role).message]) := by
  have hstart := start_of_failed h hfails
  rw [← length_owned] at h
  simp only [check, h, hstart]

/-- What a check comes to, by the number of processes it counts. -/
theorem check_cases (t : ProcessTable) (role : Role) :
    (t.processes.countP (role.owns ·.command) = 1 ∧ t.check role = (t, [])) ∨
      (∃ n, t.processes.countP (role.owns ·.command) = n + 2 ∧
        t.check role = (t, [.ambiguous role.name (n + 2)])) ∨
      (t.processes.countP (role.owns ·.command) = 0 ∧
        (role.isUsable = true ∧ t.refusing = false) ∧
        t.check role = (t.afterLaunch role, [.dead role.name, .restarted role.name])) ∨
      (t.processes.countP (role.owns ·.command) = 0 ∧
        (role.isUsable = true → t.refusing = true) ∧
        t.check role = (t.afterFailure role,
          [.dead role.name, .restartFailed role.name (startError role).message])) := by
  rcases hcount : t.processes.countP (role.owns ·.command) with _ | _ | n
  · by_cases hlaunched : role.isUsable = true ∧ t.refusing = false
    · exact .inr (.inr (.inl ⟨hcount, hlaunched, check_of_launched hcount hlaunched.1 hlaunched.2⟩))
    · have hfails : role.isUsable = true → t.refusing = true := fun husable =>
        (Bool.not_eq_false _).mp fun hwilling => hlaunched ⟨husable, hwilling⟩
      exact .inr (.inr (.inr ⟨hcount, hfails, check_of_failed hcount hfails⟩))
  · exact .inl ⟨hcount, check_of_one hcount⟩
  · exact .inr (.inl ⟨n, hcount, check_of_several hcount⟩)

end ProcessTable

namespace ProcessWatch

variable {w : ProcessWatch} {role : Role}

theorem check_eq {u : ProcessTable} {told : List HealthEvent}
    (h : w.table.check role = (u, told)) :
    w.check role = ({ w with table := u, events := w.events.sendAll told }, told.getLast?) := by
  rw [check, h]

/-- **A check of a role goes by the number of processes that play it.**  With one it tells nothing;
with several it tells just that; with none it tells first that the role is dead, and then what came
of its one launch at most.  It returns what it told last.  A launch that succeeded leaves one
process that plays the role, and the next check changes nothing.  Any other check leaves the
processes as they were, and the next one tells and returns the same. -/
theorem check_by_count (w : ProcessWatch) (role : Role) :
    ∃ (playing : Nat) (u : ProcessTable) (told : List HealthEvent),
      playing = w.table.processes.countP (role.owns ·.command) ∧
      (∀ command, role.owns command = true ↔
        role.signature ≠ "" ∧ role.signature.toList <:+: command.toList) ∧
      w.check role = ({ w with table := u, events := w.events.sendAll told }, told.getLast?) ∧
      -- what is told, and what becomes of the table
      ((playing = 1 ∧ told = [] ∧ u = w.table) ∨
        (2 ≤ playing ∧ told = [.ambiguous role.name playing] ∧ u = w.table) ∨
        (playing = 0 ∧ told = [.dead role.name, .restarted role.name] ∧
          (role.isUsable = true ∧ w.table.refusing = false) ∧
          ∃ p, role.owns p.command = true ∧
            u = { w.table with
              processes := w.table.processes ++ [p]
              nextPid := w.table.nextPid + 1
              launches := w.table.launches ++ [role.name] } ∧
            u.processes.countP (role.owns ·.command) = 1) ∨
        (playing = 0 ∧ (∃ error, told = [.dead role.name, .restartFailed role.name error]) ∧
          (role.isUsable = true → w.table.refusing = true) ∧
          u = { w.table with
            launches := w.table.launches ++ if role.isUsable then [role.name] else [] })) ∧
      -- the next check
      (told.getLast? = some (.restarted role.name) →
        (w.check role).1.check role = ((w.check role).1, none)) ∧
      (told.getLast? ≠ some (.restarted role.name) →
        ∃ launches, (w.check role).1.check role =
          ({ w with
              table := { w.table with launches }
              events := (w.events.sendAll told).sendAll told }, told.getLast?)) := by
  rcases w.table.check_cases role with
    ⟨hcount, hcheck⟩ | ⟨n, hcount, hcheck⟩ | ⟨hcount, hallowed, hcheck⟩ | ⟨hcount, hfails, hcheck⟩
  · refine ⟨1, w.table, [], hcount.symm, fun _ => Role.owns_iff, check_eq hcheck,
      .inl ⟨rfl, rfl, rfl⟩, fun h => absurd h (by simp), fun _ => ⟨w.table.launches, ?_⟩⟩
    rw [check_eq hcheck]
    exact check_eq hcheck
  · refine ⟨n + 2, w.table, _, hcount.symm, fun _ => Role.owns_iff, check_eq hcheck,
      .inr (.inl ⟨Nat.le_add_left 2 n, rfl, rfl⟩), fun h => absurd h (by simp),
      fun _ => ⟨w.table.launches, ?_⟩⟩
    rw [check_eq hcheck]
    exact check_eq hcheck
  · have hone : (w.table.afterLaunch role).processes.countP (role.owns ·.command) = 1 := by
      rw [ProcessTable.countP_afterLaunch hallowed.1, hcount]
    refine ⟨0, w.table.afterLaunch role, _, hcount.symm, fun _ => Role.owns_iff, check_eq hcheck,
      .inr (.inr (.inl ⟨rfl, rfl, hallowed, w.table.newProcess role,
        Role.owns_launched hallowed.1, rfl, hone⟩)),
      fun _ => ?_, fun h => absurd rfl h⟩
    rw [check_eq hcheck]
    exact check_eq (ProcessTable.check_of_one hone)
  · -- the next check counts the same processes on the same machine
    have hleft := w.table.afterFailure_eq role
    have hagain : (w.table.afterFailure role).check role = _ :=
      ProcessTable.check_of_failed (by rw [hleft]; exact hcount) (by rw [hleft]; exact hfails)
    generalize (ProcessTable.startError role).message = error at hcheck hagain
    refine ⟨0, w.table.afterFailure role, _, hcount.symm, fun _ => Role.owns_iff, check_eq hcheck,
      .inr (.inr (.inr ⟨rfl, ⟨error, rfl⟩, hfails, hleft⟩)), fun h => absurd h (by simp),
      fun _ => ?_⟩
    rw [hleft, ProcessTable.afterFailure_eq] at hagain
    rw [check_eq hcheck, hleft]
    exact ⟨_, check_eq hagain⟩

end ProcessWatch

end ShardKeeper
