import Mathlib.Algebra.GroupWithZero.Nat
import Mathlib.Algebra.Order.BigOperators.Group.List
import Mathlib.Data.List.Nodup
import Mathlib.Data.String.Basic
import ShardKeeper.Proofs.Numbered
import ShardKeeper.Task.Board

/-!
# The board, its listing and those who wait

Nobody who waits for the last task to end sleeps through it: whoever sleeps untold
has seen a task on the board, and all who have asked are told when the last one is
taken down.  While no task is put up, each who waits makes a few steps only.

## Main definitions

* `TaskRecord.Before` — the strict order of the listing.
* `IdleWaiter.actsLeft`, `TaskBoard.actsLeft` — how many steps those who wait can make.
* `TaskBoard.Informs` — one who waits, and knows whether there are tasks if it acts on that.

## Main results

* `sum_map_set`, `sum_map_le` — a sum after one thing has changed, and how great a sum can be.
* `TaskBoard.pairwise_listing` — the listing is in order.
* `TaskBoard.actsLeft_attend`, `TaskBoard.actsLeft_remove_le` — the steps of those who wait.
* `TaskBoard.Informs.attend`, `TaskBoard.Informs.remove` — nobody sleeps through the end.
-/

namespace ShardKeeper

/-! ### Sums -/

section Sums

variable {α : Type} {l : List α} {c : α} {i : Nat}

theorem sum_map_set (f : α → Nat) (a : α) (hi : l[i]? = some c) :
    ((l.set i a).map f).sum + f c = (l.map f).sum + f a := by
  induction l generalizing i with
  | nil => cases hi
  | cons d l ih =>
      cases i with
      | zero =>
          obtain rfl := Option.some.inj hi
          rw [List.set_cons_zero, List.map_cons, List.map_cons, List.sum_cons, List.sum_cons]
          omega
      | succ i =>
          have hrest := ih hi
          rw [List.set_cons_succ, List.map_cons, List.map_cons, List.sum_cons, List.sum_cons]
          omega

theorem sum_map_le {f : α → Nat} {bound : Nat} (h : ∀ a ∈ l, f a ≤ bound) :
    (l.map f).sum ≤ bound * l.length := by
  induction l with
  | nil => exact Nat.zero_le _
  | cons a l ih =>
      have hfirst := h a List.mem_cons_self
      have hrest := ih fun b hb => h b (List.mem_cons_of_mem a hb)
      rw [List.map_cons, List.sum_cons, List.length_cons, Nat.mul_succ]
      omega

end Sums

/-! ### Order -/

namespace TaskRecord

variable {a b c : TaskRecord}

theorem le_iff : a.le b = true ↔ a.name < b.name ∨ a.name = b.name ∧ a.id ≤ b.id := by
  rw [le, Bool.or_eq_true, Bool.and_eq_true, decide_eq_true_iff, beq_iff_eq, decide_eq_true_iff]

theorem le_trans (hab : a.le b = true) (hbc : b.le c = true) : a.le c = true := by
  rw [le_iff] at *
  rcases hab with hab | ⟨hab, hid⟩
  · rcases hbc with hbc | ⟨hbc, -⟩
    · exact .inl (lt_trans hab hbc)
    · exact .inl (hbc ▸ hab)
  · rcases hbc with hbc | ⟨hbc, hid'⟩
    · exact .inl (hab ▸ hbc)
    · exact .inr ⟨hab.trans hbc, Nat.le_trans hid hid'⟩

theorem le_total (a b : TaskRecord) : (a.le b || b.le a) = true := by
  rw [Bool.or_eq_true, le_iff, le_iff]
  rcases lt_trichotomy a.name b.name with hlt | heq | hgt
  · exact .inl (.inl hlt)
  · exact (Nat.le_total a.id b.id).imp (fun h => .inr ⟨heq, h⟩) fun h => .inr ⟨heq.symm, h⟩
  · exact .inr (.inl hgt)

/-- Earlier in a listing: by name, and by number among tasks of one name. -/
def Before (a b : TaskRecord) : Prop := a.name < b.name ∨ a.name = b.name ∧ a.id < b.id

end TaskRecord

/-! ### Steps of those who wait -/

/-- The most steps that somebody who waits can still make, if no task is put up.  One who sleeps
while there are tasks is told once, and then looks again. -/
def IdleWaiter.actsLeft (isIdle : Bool) : IdleWaiter → Nat
  | .arriving => if isIdle then 2 else 5
  | .listening told => if isIdle then 1 else if told then 7 else 4
  | .asleep told => if isIdle then (if told then 3 else 0) else if told then 6 else 3
  | .done | .gone => 0

/-- Whether somebody who waits, and acts on what it has seen, has seen what is so. -/
def IdleWaiter.Knows (isIdle : Bool) : IdleWaiter → Prop
  | .asleep false => isIdle = false
  | .done => isIdle = true
  | .gone => False
  | _ => True

namespace TaskBoard

variable {b b' : TaskBoard} {v v' : IdleWaiter} {id waiter other : Nat}

/-! ### What is on the board -/

theorem has_iff : b.has id = true ↔ id ∈ b.records.map (·.id) := by
  rw [has, List.any_eq_true, List.mem_map]
  simp only [beq_iff_eq]

theorem put_of_not_has {record : TaskRecord} (h : record.id ∉ b.records.map (·.id)) :
    b.put record = { b with records := b.records ++ [record] } := by
  rw [put, if_neg (mt has_iff.mp h)]

theorem records_remove (b : TaskBoard) (id : Nat) :
    (b.remove id).1.records = b.records.filter (·.id != id) := by
  unfold remove
  split
  · rfl
  · rename_i hnot
    refine (List.filter_eq_self.mpr fun r hr => ?_).symm
    rw [bne_iff_ne]
    rintro rfl
    exact hnot (has_iff.mpr (List.mem_map_of_mem hr))

/-- **What it means for those who wait** that a task is taken down: nothing, or there are tasks
left, or there were tasks, there are none any more, and all who have asked are told. -/
theorem remove_cases (b : TaskBoard) (id : Nat) :
    (b.remove id).1 = b ∨
      (b.isIdle = false ∧ (b.remove id).1.isIdle = false ∧
        (b.remove id).1.waiters = b.waiters) ∨
      (b.isIdle = false ∧ (b.remove id).1.isIdle = true ∧
        (b.remove id).1.waiters = b.waiters.map IdleWaiter.tell) := by
  unfold remove
  split
  · rename_i hhas
    have hbusy : b.isIdle = false := by
      cases hrecords : b.records with
      | nil =>
          rw [has, hrecords] at hhas
          cases hhas
      | cons => rw [isIdle, hrecords, List.isEmpty_cons]
    refine .inr ?_
    dsimp only [isIdle] at hbusy ⊢
    split
    · rename_i hempty
      exact .inr ⟨hbusy, hempty, rfl⟩
    · rename_i hsome
      exact .inl ⟨hbusy, Bool.eq_false_iff.mpr hsome, rfl⟩
  · exact .inl rfl

theorem listing_perm (b : TaskBoard) : b.listing.Perm b.records := List.mergeSort_perm ..

/-- **The listing is in order**, by name and then by number. -/
theorem pairwise_listing (h : (b.records.map (·.id)).Nodup) :
    b.listing.Pairwise TaskRecord.Before := by
  have hordered : b.listing.Pairwise fun r s => r.le s = true :=
    @List.pairwise_mergeSort _ TaskRecord.le (fun _ _ _ => TaskRecord.le_trans)
      TaskRecord.le_total b.records
  have hnodup : (b.listing.map (·.id)).Nodup := (b.listing_perm.map _).nodup_iff.mpr h
  have hids : b.listing.Pairwise fun r s => r.id ≠ s.id := List.pairwise_map.mp hnodup
  refine (hordered.and hids).imp fun {r s} hrs => ?_
  exact (TaskRecord.le_iff.mp hrs.1).imp_right fun hle =>
    ⟨hle.1, Nat.lt_of_le_of_ne hle.2 hrs.2⟩

/-! ### Those who wait -/

theorem attend?_eq_some (h : b.attend? waiter = some b') :
    ∃ v v', b.waiters[waiter]? = some v ∧ b.step? v = some v' ∧
      b' = { b with waiters := b.waiters.set waiter v' } := by
  obtain ⟨v', hstep, rfl⟩ := Option.map_eq_some_iff.mp h
  obtain ⟨v, hv, hstep⟩ := Option.bind_eq_some_iff.mp hstep
  exact ⟨v, v', hv, hstep, rfl⟩

/-- The most steps that all who wait can still make. -/
def actsLeft (b : TaskBoard) : Nat := (b.waiters.map (IdleWaiter.actsLeft b.isIdle)).sum

theorem actsLeft_step (h : b.step? v = some v') :
    v'.actsLeft b.isIdle < v.actsLeft b.isIdle := by
  cases v with
  | arriving =>
      obtain rfl := Option.some.inj h
      cases b.isIdle <;> decide
  | listening told =>
      obtain rfl := Option.some.inj h
      cases b.isIdle <;> cases told <;> decide
  | asleep told =>
      cases told with
      | false => cases h
      | true =>
          obtain rfl := Option.some.inj h
          cases b.isIdle <;> decide
  | done => cases h
  | gone => cases h

theorem actsLeft_attend (h : b.attend? waiter = some b') : b'.actsLeft < b.actsLeft := by
  obtain ⟨v, v', hv, hstep, rfl⟩ := attend?_eq_some h
  have hsum := sum_map_set (IdleWaiter.actsLeft b.isIdle) v' hv
  have hlt := actsLeft_step hstep
  show ((b.waiters.set waiter v').map (IdleWaiter.actsLeft b.isIdle)).sum < _
  rw [actsLeft]
  omega

/-- Who is told when the last task ends has no more steps to make than before. -/
theorem actsLeft_tell (v : IdleWaiter) : v.tell.actsLeft true ≤ v.actsLeft false := by
  cases v with
  | arriving => decide
  | listening told => cases told <;> decide
  | asleep told => cases told <;> decide
  | done => exact Nat.le_refl _
  | gone => exact Nat.le_refl _

theorem actsLeft_remove_le (b : TaskBoard) (id : Nat) : (b.remove id).1.actsLeft ≤ b.actsLeft := by
  rcases b.remove_cases id with heq | ⟨hbusy, hbusy', heq⟩ | ⟨hbusy, hidle, heq⟩
  · rw [heq]
  · rw [actsLeft, actsLeft, heq, hbusy, hbusy']
  · rw [actsLeft, actsLeft, heq, hbusy, hidle, List.map_map]
    exact List.sum_le_sum fun v _ => actsLeft_tell v

theorem actsLeft_le (b : TaskBoard) : b.actsLeft ≤ 7 * b.waiters.length := by
  refine sum_map_le fun v _ => ?_
  cases b.isIdle <;> cases v with
  | listening told => cases told <;> decide
  | asleep told => cases told <;> decide
  | _ => decide

/-- Somebody waits, and what it has seen is so. -/
def Informs (b : TaskBoard) (waiter : Nat) : Prop :=
  ∃ v, b.waiters[waiter]? = some v ∧ v.Knows b.isIdle

theorem knows_step (h : b.step? v = some v') : v'.Knows b.isIdle := by
  cases v with
  | arriving =>
      obtain rfl := Option.some.inj h
      trivial
  | listening told =>
      obtain rfl := Option.some.inj h
      cases hidle : b.isIdle with
      | true => rfl
      | false => cases told <;> trivial
  | asleep told =>
      cases told with
      | false => cases h
      | true =>
          obtain rfl := Option.some.inj h
          trivial
  | done => cases h
  | gone => cases h

theorem Informs.attend (h : b.Informs waiter) (hattend : b.attend? other = some b') :
    b'.Informs waiter := by
  obtain ⟨v, hv, hknows⟩ := h
  obtain ⟨w, w', hw, hstep, rfl⟩ := attend?_eq_some hattend
  rcases eq_or_ne waiter other with rfl | hne
  · exact ⟨w', List.getElem?_set_self (List.getElem?_eq_some_iff.mp hw).1, knows_step hstep⟩
  · exact ⟨v, (List.getElem?_set_ne hne.symm).trans hv, hknows⟩

/-- Who neither acts nor is done has seen a task. -/
theorem Informs.isIdle_eq_false (h : b.Informs waiter) (hnone : b.attend? waiter = none)
    (hwaits : b.isDone waiter = false) : b.isIdle = false := by
  obtain ⟨v, hv, hknows⟩ := h
  have hstep : b.step? v = none := by
    have hbind := Option.map_eq_none_iff.mp hnone
    rwa [hv] at hbind
  cases v with
  | arriving => cases hstep
  | listening => cases hstep
  | asleep told =>
      cases told with
      | false => exact hknows
      | true => cases hstep
  | done =>
      rw [isDone, hv] at hwaits
      cases hwaits
  | gone => cases hknows

/-- Who is done has seen that there is no task, and there is none. -/
theorem Informs.isIdle_of_isDone (h : b.Informs waiter) (hdone : b.isDone waiter = true) :
    b.isIdle = true := by
  obtain ⟨v, hv, hknows⟩ := h
  rw [isDone, hv] at hdone
  obtain rfl := Option.some.inj (eq_of_beq hdone)
  exact hknows

/-- **Nobody sleeps through the end of the last task.** -/
theorem Informs.remove (h : b.Informs waiter) (id : Nat) : (b.remove id).1.Informs waiter := by
  obtain ⟨v, hv, hknows⟩ := h
  rcases b.remove_cases id with heq | ⟨hbusy, hbusy', heq⟩ | ⟨hbusy, -, heq⟩
  · rw [heq]
    exact ⟨v, hv, hknows⟩
  · refine ⟨v, heq ▸ hv, ?_⟩
    rw [hbusy']
    rwa [hbusy] at hknows
  · refine ⟨v.tell, ?_, ?_⟩
    · rw [heq, List.getElem?_map, hv]
      rfl
    · rw [hbusy] at hknows
      cases v with
      | done => cases hknows
      | gone => exact hknows
      | _ => trivial

end TaskBoard

end ShardKeeper
