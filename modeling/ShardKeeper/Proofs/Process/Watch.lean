import ShardKeeper.Process.Watch
import ShardKeeper.Proofs.Process.Stopping
import ShardKeeper.Proofs.Timed

/-!
# A stop among other activities

While a stop waits for its next look, roles are checked in the background and
started again, and processes come and go.  To the stop all of that is a table that
is not what it was.

## Main definitions

* `Stopping.Goes` — how a stop may go from a look on, whatever becomes of the table before each
  look.
* `ProcessWatch.Beside` — a step that leaves a stop under way alone, but perhaps not the table.

## Main results

* `Stopping.Goes.exists_others` — whatever happens before each look is somebody's doing.
* `ProcessWatch.beside_of_act?` — what the other activities do.
* `ProcessWatch.exists_others_of_stop` — a stop in a world in time is one of `Stopping.runAmong`.
-/

namespace ShardKeeper

/-! ### What may happen before each look -/

namespace ProcessTable

variable {t found : ProcessTable}

/-- Somebody who makes one table into another and leaves every other table alone. -/
def replaced (t found u : ProcessTable) : ProcessTable := if u = t then found else u

theorem replaced_self (t found : ProcessTable) : replaced t found t = found := if_pos rfl

theorem becomes_replaced (h : t.Becomes found) (u : ProcessTable) :
    u.Becomes (replaced t found u) := by
  rw [replaced]
  split
  · rename_i heq
    exact heq ▸ h
  · exact .refl u

theorem becomes_start (t : ProcessTable) (role : Role) : t.Becomes (t.start role).1 := by
  have hlaunch : t.Becomes (t.launch role).1 := (Step.launch t role).becomes
  rw [start]
  split
  · exact .refl t
  · split
    · split <;> rename_i heq <;> rw [heq] at hlaunch <;> exact hlaunch
    · exact .refl t

theorem becomes_check (t : ProcessTable) (role : Role) : t.Becomes (t.check role).1 := by
  have hstart : t.Becomes (t.start role).1 := t.becomes_start role
  rw [check]
  split
  · exact .refl t
  · split <;> rename_i heq <;> rw [heq] at hstart <;> exact hstart
  · exact .refl t

end ProcessTable

namespace Stopping

variable {s : Stopping} {t u : ProcessTable} {now : Instant} {r : Run}

/-- How a stop may go from a look at an instant on, whatever becomes of the table before each
look. -/
inductive Goes (s : Stopping) : ProcessTable → Instant → Run → Prop where
  | finish {t found u : ProcessTable} {now : Instant} {outcome : StopOutcome}
      (hfound : t.Becomes found) (hlook : s.look found now = (u, .finish outcome)) :
      Goes s t now ⟨[(now, found)], u.signalsSince found, outcome, now, u⟩
  | again {t found u : ProcessTable} {now next : Instant} {r : Run} (hfound : t.Becomes found)
      (hlook : s.look found now = (u, .again next)) (hrest : Goes s u next r) :
      Goes s t now (r.after [(now, found)] [])

theorem Goes.of_becomes (hu : t.Becomes u) (h : s.Goes u now r) : s.Goes t now r := by
  cases h with
  | finish hfound hlook => exact .finish (hu.trans hfound) hlook
  | again hfound hlook hrest => exact .again (hu.trans hfound) hlook hrest

/-- **Whatever happens before each look is somebody's doing.** -/
theorem Goes.exists_others (h : s.Goes t now r) :
    ∃ others, (∀ k u, ProcessTable.Becomes u (others k u)) ∧ s.follow others t now = r := by
  induction h with
  | @finish t found u now outcome hfound hlook =>
      rw [← ProcessTable.replaced_self t found] at hlook ⊢
      exact ⟨fun _ => .replaced t found, fun _ => ProcessTable.becomes_replaced hfound,
        follow_of_finish hlook⟩
  | @again t found u now next r hfound hlook _ ih =>
      obtain ⟨others, hothers, rfl⟩ := ih
      obtain ⟨rfl, -⟩ := look_again hlook
      rw [← ProcessTable.replaced_self t u] at hlook ⊢
      refine ⟨fun k => k.casesOn (.replaced t u) others, fun k => ?_, follow_of_again hlook⟩
      cases k with
      | zero => exact ProcessTable.becomes_replaced hfound
      | succ k => exact hothers k

end Stopping

namespace ProcessWatch

variable {w w' : ProcessWatch} {s : Stopping} {next : Instant}

/-! ### What the other activities do -/

/-- A step that leaves a stop under way alone, but perhaps not the table. -/
structure Beside (w w' : ProcessWatch) : Prop where
  table : w.table.Becomes w'.table
  stopping : w'.stopping = w.stopping
  stopped : w'.stopped = w.stopped
  clock : w'.clock = w.clock

theorem Beside.refl (w : ProcessWatch) : w.Beside w := ⟨.refl _, rfl, rfl, rfl⟩

theorem Beside.trans {w'' : ProcessWatch} (h : w.Beside w') (h' : w'.Beside w'') : w.Beside w'' :=
  ⟨h.table.trans h'.table, h'.stopping.trans h.stopping, h'.stopped.trans h.stopped,
    h'.clock.trans h.clock⟩

theorem beside_checkAll (w : ProcessWatch) (roles : List Role) : w.Beside (w.checkAll roles) := by
  induction roles generalizing w with
  | nil => exact .refl w
  | cons role roles ih =>
      have hcheck : w.Beside (w.check role).1 := ⟨w.table.becomes_check role, rfl, rfl, rfl⟩
      exact hcheck.trans (ih _)

theorem beside_setPhase (w : ProcessWatch) (place : Nat) (watch : RoleWatch) (phase : WatchPhase) :
    w.Beside (w.setPhase place watch phase) := ⟨.refl _, rfl, rfl, rfl⟩

theorem beside_of_move? {place : Nat} (h : w.move? place = some w') : w.Beside w' := by
  obtain ⟨watch, -, h⟩ := Option.bind_eq_some_iff.mp h
  split at h
  · split at h <;> cases h <;> exact beside_setPhase ..
  · split at h
    · cases h
      exact ⟨.refl _, rfl, rfl, rfl⟩
    · split at h
      · cases h
        exact (beside_setPhase ..).trans (beside_checkAll ..)
      · cases h
  · cases h

/-- **What the other activities do** while a stop waits. -/
theorem beside_of_act? (hwaits : w.moveStop? = none) (h : Timed.act? w = some w') :
    w.Beside w' := by
  have h : (w.moveStop?.or (w.group.attendNext?.map fun group => { w with group })).or
      ((List.range w.watches.length).findSome? w.move?) = some w' := h
  rw [hwaits, Option.none_or] at h
  cases hgroup : w.group.attendNext? with
  | some group =>
      rw [hgroup] at h
      cases h
      exact ⟨.refl _, rfl, rfl, rfl⟩
  | none =>
      rw [hgroup] at h
      obtain ⟨place, -, hmove⟩ := List.exists_of_findSome?_eq_some h
      exact beside_of_move? hmove

/-! ### A stop under way -/

/-- A stop waits for its look at an instant, or that instant has just come. -/
structure Waits (w : ProcessWatch) (s : Stopping) (next : Instant) : Prop where
  stopping : w.stopping = some (s, next)
  stopped : w.stopped = none
  clock : w.clock ≤ next

theorem Waits.beside (h : w.Waits s next) (hbeside : w.Beside w') : w'.Waits s next where
  stopping := hbeside.stopping.trans h.stopping
  stopped := hbeside.stopped.trans h.stopped
  clock := hbeside.clock ▸ h.clock

/-- A stop looks when the instant has come, and not later. -/
theorem Waits.look (h : w.Waits s next) (hmove : w.moveStop? = some w') :
    (∃ outcome, s.look w.table next = (w'.table, .finish outcome) ∧
        w'.stopped = some outcome ∧ w'.clock = next) ∨
      ∃ later, s.look w.table next = (w'.table, .again later) ∧ w'.Waits s later := by
  rw [moveStop?, h.stopping] at hmove
  dsimp only at hmove
  split at hmove
  · rename_i hdue
    obtain rfl : w.clock = next := Nat.le_antisymm h.clock hdue
    split at hmove
    · rename_i table outcome hlook
      cases hmove
      exact .inl ⟨outcome, hlook, rfl, rfl⟩
    · rename_i table later hlook
      cases hmove
      obtain ⟨-, hearly, rfl⟩ := Stopping.look_again hlook
      exact .inr ⟨_, hlook, rfl, h.stopped, Nat.le_of_lt (Stopping.lt_nextLook hearly)⟩
  · cases hmove

/-- What the next activity does while a stop is under way. -/
theorem Waits.act (h : w.Waits s next) (hact : Timed.act? w = some w') :
    (∃ outcome, s.look w.table next = (w'.table, .finish outcome) ∧
        w'.stopped = some outcome ∧ w'.clock = next) ∨
      (∃ later, s.look w.table next = (w'.table, .again later) ∧ w'.Waits s later) ∨
      w.Beside w' := by
  cases hmove : w.moveStop? with
  | none => exact .inr (.inr (beside_of_act? hmove hact))
  | some looked =>
      -- a stop that can look does so before anybody else acts
      have hfirst : (w.moveStop?.or _).or _ = some w' := hact
      rw [hmove] at hfirst
      obtain rfl : looked = w' := Option.some.inj hfirst
      exact (h.look hmove).imp_right .inl

/-- Time passes no further than to the look. -/
theorem Waits.wait (h : w.Waits s next) {instants : List (Option Instant)} {t : Instant}
    (hdue : Timed.due? w ∈ instants) (ht : Timed.earliest? instants = some t) :
    (Timed.waitUntil w t).Waits s next where
  stopping := h.stopping
  stopped := h.stopped
  clock := by
    have hnext : some next ∈
        w.stopping.map (·.2) :: w.watches.map fun r => WatchPhase.due? r.phase := by
      rw [h.stopping]
      exact List.mem_cons_self
    obtain ⟨d, hd, hle⟩ : ∃ d, Timed.due? w = some d ∧ d ≤ next := Timed.exists_earliest? hnext
    exact Nat.le_trans (Timed.earliest?_le (hd ▸ hdue) ht) hle

/-- **How a stop under way goes**, as long as the world is left to itself. -/
theorem goes_of_run (h : w.Waits s next) {limit : Nat} {changes : List (Timed.Change ProcessWatch)}
    (hchanges : ∀ c ∈ changes, ∀ w : ProcessWatch, w.Beside (c.apply w)) {outcome : StopOutcome}
    (hrun : Timed.run (fun w : ProcessWatch => w.stopped.isSome) none limit changes w = w')
    (houtcome : w'.stopped = some outcome) :
    ∃ r, s.Goes w.table next r ∧ r.outcome = outcome ∧ r.instant = w'.clock ∧
      r.table = w'.table := by
  -- by the steps of the world: all that comes before a look goes to what it finds
  induction limit generalizing w changes next with
  | zero =>
      obtain rfl : w = w' := hrun
      rw [h.stopped] at houtcome
      cases houtcome
  | succ limit ih =>
      rcases Timed.run_succ_cases
          (fun w : ProcessWatch => w.stopped.isSome) none limit changes w with
        ⟨c, hc, rest, hrest, heq⟩ | ⟨v, hact, heq⟩ | ⟨-, instants, t, hdue, ht, heq⟩ | heq
      · have hbeside := hchanges c hc w
        obtain ⟨r, hgoes, hr⟩ :=
          ih (h.beside hbeside) (fun d hd => hchanges d (hrest hd)) (heq.symm.trans hrun)
        exact ⟨r, hgoes.of_becomes hbeside.table, hr⟩
      · rcases h.act hact with
          ⟨_, hlook, hended, hclock⟩ | ⟨later, hlook, hwaits⟩ | hbeside
        · -- the goal is reached, so nobody acts any more
          obtain rfl : v = w' :=
            (Timed.run_of_goal (by rw [hended]; rfl)).symm.trans (heq.symm.trans hrun)
          obtain rfl := Option.some.inj (hended.symm.trans houtcome)
          exact ⟨_, .finish (.refl _) hlook, rfl, hclock.symm, rfl⟩
        · obtain ⟨r, hgoes, hr⟩ := ih hwaits hchanges (heq.symm.trans hrun)
          exact ⟨_, .again (.refl _) hlook hgoes, hr⟩
        · obtain ⟨r, hgoes, hr⟩ := ih (h.beside hbeside) hchanges (heq.symm.trans hrun)
          exact ⟨r, hgoes.of_becomes hbeside.table, hr⟩
      · exact ih (w := Timed.waitUntil w t) (h.wait hdue ht) hchanges (heq.symm.trans hrun)
      · obtain rfl : w = w' := heq.symm.trans hrun
        rw [h.stopped] at houtcome
        cases houtcome

/-- **A stop among other activities** is a stop in which others make what they like of the table,
if it comes to an end before the patience of the world does.  Changes from outside may do to the
table what can be done to one. -/
theorem exists_others_of_stop (w : ProcessWatch) (role : Role) (timeout : Duration)
    {changes : List (Timed.Change ProcessWatch)}
    (hchanges : ∀ c ∈ changes, ∀ w : ProcessWatch, w.Beside (c.apply w))
    (hends : w.table.owned role = [] ∨ (w.stop role timeout changes).2 ≠ .notRunning) :
    ∃ others, (∀ k u, ProcessTable.Becomes u (others k u)) ∧
      let r := Stopping.runAmong others w.table role timeout w.clock
      (w.stop role timeout changes).2 = r.outcome ∧
        (w.stop role timeout changes).1.table = r.table ∧
        (w.stop role timeout changes).1.clock = r.instant := by
  rcases eq_or_ne (w.table.owned role) [] with hnone | hsome
  · refine ⟨fun _ u => u, fun _ u => .refl u, ?_⟩
    rw [stop, Stopping.begin_of_none hnone, Stopping.runAmong_of_none hnone]
    exact ⟨rfl, rfl, rfl⟩
  · have hends := hends.resolve_left hsome
    rw [stop, Stopping.begin_of_some hsome] at hends ⊢
    dsimp only at hends ⊢
    generalize hw' : Timed.runUntil _ changes _ = w' at hends ⊢
    obtain ⟨outcome, houtcome⟩ : ∃ outcome, w'.stopped = some outcome := by
      cases h : w'.stopped with
      | some outcome => exact ⟨outcome, rfl⟩
      | none =>
          rw [h] at hends
          exact absurd rfl hends
    obtain ⟨r, hgoes, hr⟩ := goes_of_run ⟨rfl, rfl, Nat.le_refl _⟩ hchanges hw' houtcome
    obtain ⟨others, hothers, rfl⟩ := hgoes.exists_others
    refine ⟨others, hothers, ?_⟩
    rw [Stopping.runAmong_of_some others timeout w.clock hsome, houtcome]
    exact ⟨hr.1.symm, hr.2.2.symm, hr.2.1.symm⟩

end ProcessWatch

end ShardKeeper
