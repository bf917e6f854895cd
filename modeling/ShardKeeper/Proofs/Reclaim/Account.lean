import Mathlib.Data.List.Nodup
import ShardKeeper.Proofs.Reclaim.Course

/-!
# The account of the locks

A key is taken by the request that begins a saga and given back by the end of
that saga, whichever end it is.  Here a course is written down as it goes: the
requests that were accepted, the sagas that ended, and the keys that were given
back.  The counters of the locks agree with what is written down.

## Main definitions

* `ReclaimJournal` — what is written down.
* `Node.endedBy`, `Node.freedBy` — the sagas that end and the keys that are given back in a step.
* `Node.Journaled` — a course with its journal.
* `ReclaimJournal.Agrees` — the journal, the sagas and the locks tell the same.

## Main results

* `Node.Journaled.course`, `Node.exists_journaled` — these are all courses.
* `Node.Journaled.agrees` — the journal of a course agrees with the desk.
* `Node.locks_account_for_sagas` — who holds keys, which requests are refused, and what is counted.

## Design notes

The journal looks at the answer of a request and at two states of the locks and
the sagas, never at the counters, so that it can be held against them.
-/

namespace ShardKeeper

/-- What happened to the keys in the course of a node. -/
structure ReclaimJournal where
  /-- The keys of the accepted requests. -/
  accepted : List ReclaimKey
  /-- The numbers of the sagas that ended. -/
  ended : List Nat
  /-- The keys that were given back. -/
  freed : List ReclaimKey
deriving DecidableEq

namespace ReclaimJournal

/-- The journal before anything has happened. -/
def blank : ReclaimJournal := ⟨[], [], []⟩

/-- The journal after a request with its answer. -/
def request (j : ReclaimJournal) (key : ReclaimKey) : Option Nat → ReclaimJournal
  | none => j
  | some _ => { j with accepted := j.accepted ++ [key] }

end ReclaimJournal

/-- Exactly one number passes. -/
theorem filter_range_eq_singleton {p : Nat → Bool} {k i : Nat} (hi : i < k)
    (hp : ∀ j < k, p j = true ↔ j = i) : (List.range k).filter p = [i] := by
  have hcongr : (List.range k).filter p = (List.range k).filter (· == i) := by
    apply List.filter_congr
    intro j hj
    rw [Bool.eq_iff_iff, hp j (List.mem_range.mp hj), beq_iff_eq]
  rw [hcongr, List.filter_beq, List.count_eq_one_of_mem List.nodup_range (List.mem_range.mpr hi)]
  rfl

namespace ReclaimLocks

/-- Giving back a key that is held counts once and takes no other key away. -/
theorem giveBack_of_isHeld {l : ReclaimLocks} {key : ReclaimKey} (h : l.isHeld key = true) :
    l.giveBack key = { l with held := l.held.erase key, returned := l.returned + 1 } :=
  if_pos h

end ReclaimLocks

namespace Node

variable {n₀ n m : Node}

/-- Whether a saga has a number and is under way. -/
def isUnderWay (n : Node) (saga : Nat) : Bool := n.desk.sagas[saga]?.any fun s => !s.isOver

/-- The sagas that end in a step from `n` to `m`. -/
def endedBy (n m : Node) : List Nat :=
  (List.range n.desk.sagas.length).filter fun i => n.isUnderWay i && !m.isUnderWay i

/-- The keys that are given back in a step from `n` to `m`. -/
def freedBy (n m : Node) : List ReclaimKey :=
  n.desk.locks.held.filter fun key => !m.desk.locks.isHeld key

/-- The journal after a step of an activity. -/
def recordStep (n m : Node) (j : ReclaimJournal) : ReclaimJournal :=
  { j with ended := j.ended ++ n.endedBy m, freed := j.freed ++ n.freedBy m }

/-- A course from `n₀` with its journal. -/
inductive Journaled (n₀ : Node) : ReclaimJournal → Node → Prop where
  | start : Journaled n₀ .blank n₀
  | request {n : Node} {j : ReclaimJournal} (h : Journaled n₀ j n) (key : ReclaimKey) :
      Journaled n₀ (j.request key (n.reclaim key).2) (n.reclaim key).1
  | act {n m : Node} {j : ReclaimJournal} {number : Nat} (h : Journaled n₀ j n)
      (hmove : n.move? number = some m) : Journaled n₀ (n.recordStep m j) m
  | aside {n m : Node} {j : ReclaimJournal} (h : Journaled n₀ j n) (haside : n.Aside m) :
      Journaled n₀ j m

theorem Journaled.course {j : ReclaimJournal} (h : n₀.Journaled j n) : n₀.Course n := by
  induction h with
  | start => exact .refl
  | request _ key ih => exact ih.tail (.reclaim _ key)
  | act _ hmove ih => exact ih.tail (.act hmove)
  | aside _ haside ih => exact ih.tail (.aside haside)

theorem Journaled.of_eq {j k : ReclaimJournal} (h : n₀.Journaled j n) (heq : j = k) :
    n₀.Journaled k n := heq ▸ h

/-- Every course can be written down. -/
theorem exists_journaled (h : n₀.Course n) : ∃ j, n₀.Journaled j n := by
  induction h with
  | refl => exact ⟨_, .start⟩
  | tail _ hstep ih =>
      obtain ⟨j, hj⟩ := ih
      cases hstep with
      | act hmove => exact ⟨_, hj.act hmove⟩
      | reclaim key => exact ⟨_, hj.request key⟩
      | aside haside => exact ⟨_, hj.aside haside⟩

/-! ### What a step means for the keys -/

theorem isUnderWay_iff {saga : Nat} :
    n.isUnderWay saga = true ↔ ∃ s, n.desk.sagas[saga]? = some s ∧ s.isOver = false := by
  unfold isUnderWay
  cases n.desk.sagas[saga]? <;> simp

theorem endedBy_of_desk_eq (h : m.desk = n.desk) : n.endedBy m = [] := by
  unfold endedBy isUnderWay
  rw [h]
  simp

theorem freedBy_of_locks_eq (h : m.desk.locks = n.desk.locks) : n.freedBy m = [] := by
  unfold freedBy
  rw [h]
  simp [ReclaimLocks.isHeld]

variable {saga : Nat} {ticket : TaskTicket} {s s' : Saga}

theorem Moved.isUnderWay (h : n.Moved m saga ticket s s') (i : Nat) :
    m.isUnderWay i = if i = saga then !s'.isOver else n.isUnderWay i := by
  have hlt : saga < n.desk.sagas.length := (List.getElem?_eq_some_iff.mp h.saga).1
  unfold Node.isUnderWay
  rw [h.desk]
  show ((n.desk.sagas.set saga s')[i]?.any fun s => !s.isOver) = _
  split
  · rename_i hi
    rw [hi, List.getElem?_set_self hlt]
    rfl
  · rename_i hi
    rw [List.getElem?_set_ne (Ne.symm hi)]

/-- No saga but the one that makes the step ends in it. -/
theorem Moved.endedBy (h : n.Moved m saga ticket s s') :
    n.endedBy m = if s'.isOver then [saga] else [] := by
  have hlt : saga < n.desk.sagas.length := (List.getElem?_eq_some_iff.mp h.saga).1
  have hunder : n.isUnderWay saga = true :=
    isUnderWay_iff.mpr ⟨s, h.saga, h.step.isOver_eq_false⟩
  unfold Node.endedBy
  cases hover : s'.isOver with
  | true =>
      apply filter_range_eq_singleton hlt
      intro i _
      rw [h.isUnderWay i, hover]
      by_cases hi : i = saga
      · simp [hi, hunder]
      · simp [hi]
  | false =>
      apply List.filter_eq_nil_iff.mpr
      intro i _
      rw [h.isUnderWay i, hover]
      by_cases hi : i = saga
      · simp [hi]
      · simp [hi]

/-- A saga that ends gives its key back, and nobody else does. -/
theorem Moved.freedBy (h : n.Moved m saga ticket s s') (hsound : n.desk.Sound) :
    n.freedBy m = if s'.isOver then [s.key] else [] := by
  have hheld : n.desk.locks.isHeld s.key = true :=
    hsound.isHeld h.saga h.step.isOver_eq_false
  cases hover : s'.isOver with
  | false =>
      refine freedBy_of_locks_eq ?_
      rw [h.desk, ReclaimDesk.update, hover]
      rfl
  | true =>
      have hlocks : m.desk.locks = n.desk.locks.giveBack s.key := by
        rw [h.desk, ReclaimDesk.update, hover, h.step.key_eq]
        rfl
      unfold Node.freedBy
      rw [hlocks]
      have hcongr :
          (n.desk.locks.held.filter fun key => !(n.desk.locks.giveBack s.key).isHeld key) =
            n.desk.locks.held.filter (· == s.key) := by
        apply List.filter_congr
        intro key hkey
        have hold : n.desk.locks.isHeld key = true := ReclaimLocks.isHeld_iff.mpr hkey
        have hnew := ReclaimLocks.isHeld_giveBack hsound.nodup s.key key
        rw [Bool.eq_iff_iff, Bool.not_eq_true', ← Bool.not_eq_true, hnew, beq_iff_eq]
        simp [hold]
      rw [hcongr, List.filter_beq,
        List.count_eq_one_of_mem hsound.nodup (ReclaimLocks.isHeld_iff.mp hheld)]
      rfl

/-- With a request no saga ends. -/
theorem Asked.endedBy {key : ReclaimKey} (h : n.Asked m key saga ticket) : n.endedBy m = [] := by
  obtain ⟨locks, -, -, hdesk⟩ := ReclaimDesk.request_eq_some h.desk
  unfold Node.endedBy
  apply List.filter_eq_nil_iff.mpr
  intro i hi
  have hold : m.isUnderWay i = n.isUnderWay i := by
    unfold isUnderWay
    rw [hdesk]
    show ((n.desk.sagas ++ [Saga.ofKey key])[i]?.any fun s => !s.isOver) = _
    rw [List.getElem?_append_left (List.mem_range.mp hi)]
  simp [hold]

/-- With a request no key is given back. -/
theorem Asked.freedBy {key : ReclaimKey} (h : n.Asked m key saga ticket) : n.freedBy m = [] := by
  obtain ⟨locks, hlocks, -, hdesk⟩ := ReclaimDesk.request_eq_some h.desk
  have hlater : m.desk.locks = locks := congrArg ReclaimDesk.locks hdesk
  unfold Node.freedBy
  apply List.filter_eq_nil_iff.mpr
  intro other hother
  rw [hlater, ReclaimLocks.isHeld_of_take? hlocks, ReclaimLocks.isHeld_iff.mpr hother]
  simp

/-- **A step gives back the key of the saga that ends in it, and no other.** -/
theorem Step.frees (h : n.Step m) (hsound : n.desk.Sound) :
    (n.endedBy m = [] ∧ n.freedBy m = []) ∨
      ∃ saga s, n.desk.sagas[saga]? = some s ∧ n.endedBy m = [saga] ∧ n.freedBy m = [s.key] := by
  rcases h.cases with haside | ⟨key, saga, ticket, hasked⟩ | ⟨_, saga, ticket, s, s', -, -, hmoved⟩
  · exact Or.inl ⟨endedBy_of_desk_eq haside.desk,
      freedBy_of_locks_eq (congrArg ReclaimDesk.locks haside.desk)⟩
  · exact Or.inl ⟨hasked.endedBy, hasked.freedBy⟩
  · rw [hmoved.endedBy, hmoved.freedBy hsound]
    cases s'.isOver with
    | true => exact Or.inr ⟨saga, s, hmoved.saga, rfl, rfl⟩
    | false => exact Or.inl ⟨rfl, rfl⟩

end Node

/-! ### The invariant -/

/-- A journal, the sagas and the locks tell the same. -/
structure ReclaimJournal.Agrees (j : ReclaimJournal) (d : ReclaimDesk) : Prop where
  /-- Each accepted request has begun a saga, and nothing else has. -/
  accepted : d.sagas.map Saga.key = j.accepted
  taken : d.locks.taken = j.accepted.length
  /-- No saga ends twice, and exactly those that are over have ended. -/
  nodup : j.ended.Nodup
  mem_ended : ∀ i, i ∈ j.ended ↔ ∃ s, d.sagas[i]? = some s ∧ s.isOver = true
  returned : d.locks.returned = j.ended.length
  /-- With each end the key of that saga was given back, and no key at any other time. -/
  freed : j.ended.map (fun i => d.sagas[i]?.map Saga.key) = j.freed.map some
  balance : d.locks.taken = d.locks.returned + d.locks.held.length

namespace ReclaimJournal.Agrees

variable {j : ReclaimJournal} {d d' : ReclaimDesk} {saga : Nat}

theorem opened (plan : ReclaimPlan) : ReclaimJournal.blank.Agrees (.opened plan) where
  accepted := rfl
  taken := rfl
  nodup := List.nodup_nil
  mem_ended := by simp [ReclaimJournal.blank, ReclaimDesk.opened]
  returned := rfl
  freed := rfl
  balance := rfl

theorem request {key : ReclaimKey} (h : j.Agrees d) (hrequest : d.request key = some (d', saga)) :
    (j.request key (some saga)).Agrees d' := by
  obtain ⟨locks, hlocks, -, rfl⟩ := ReclaimDesk.request_eq_some hrequest
  obtain ⟨-, rfl⟩ := ReclaimLocks.take?_eq_some hlocks
  -- the sagas before the new one keep their numbers
  have hold : ∀ i ∈ j.ended, (d.sagas ++ [Saga.ofKey key])[i]? = d.sagas[i]? := by
    intro i hi
    obtain ⟨s, hs, -⟩ := (h.mem_ended i).mp hi
    exact List.getElem?_append_left (List.getElem?_eq_some_iff.mp hs).1
  refine ⟨?_, ?_, h.nodup, ?_, h.returned, ?_, ?_⟩
  · show (d.sagas ++ [Saga.ofKey key]).map Saga.key = j.accepted ++ [key]
    rw [List.map_append, h.accepted]
    rfl
  · show d.locks.taken + 1 = (j.accepted ++ [key]).length
    rw [List.length_append, h.taken]
    rfl
  · intro i
    refine (h.mem_ended i).trans ⟨?_, ?_⟩
    · rintro ⟨s, hs, hover⟩
      exact ⟨s, getElem?_concat_eq_some_iff.mpr (Or.inr hs), hover⟩
    · rintro ⟨s, hs, hover⟩
      rcases getElem?_concat_eq_some_iff.mp hs with ⟨-, rfl⟩ | hs
      · cases hover
      · exact ⟨s, hs, hover⟩
  · show j.ended.map (fun i => (d.sagas ++ [Saga.ofKey key])[i]?.map Saga.key) = j.freed.map some
    rw [← h.freed]
    apply List.map_congr_left
    intro i hi
    rw [hold i hi]
  · show d.locks.taken + 1 = d.locks.returned + (d.locks.held.length + 1)
    rw [h.balance]
    rfl

variable {s s' : Saga}

theorem key_update (hs : d.sagas[saga]? = some s) (hkey : s'.key = s.key) (i : Nat) :
    (d.sagas.set saga s')[i]?.map Saga.key = d.sagas[i]?.map Saga.key := by
  have hlt : saga < d.sagas.length := (List.getElem?_eq_some_iff.mp hs).1
  rcases eq_or_ne i saga with rfl | hne
  · rw [List.getElem?_set_self hlt, hs, Option.map_some, Option.map_some, hkey]
  · rw [List.getElem?_set_ne hne.symm]

theorem map_key_update (hs : d.sagas[saga]? = some s) (hkey : s'.key = s.key) :
    (d.sagas.set saga s').map Saga.key = d.sagas.map Saga.key := by
  apply List.ext_getElem?
  intro i
  rw [List.getElem?_map, List.getElem?_map, key_update hs hkey]

/-- A saga that goes on leaves the account as it is. -/
theorem goOn (h : j.Agrees d) (hs : d.sagas[saga]? = some s) (hunder : s.isOver = false)
    (hkey : s'.key = s.key) (hover : s'.isOver = false) : j.Agrees (d.update saga s') := by
  have hlocks : (d.update saga s').locks = d.locks := by
    rw [ReclaimDesk.update, hover]
    rfl
  refine ⟨?_, ?_, h.nodup, ?_, ?_, ?_, ?_⟩
  · rw [← h.accepted]
    exact map_key_update hs hkey
  · rw [hlocks]
    exact h.taken
  · intro i
    refine (h.mem_ended i).trans ?_
    show _ ↔ ∃ t, (d.sagas.set saga s')[i]? = some t ∧ t.isOver = true
    constructor
    · rintro ⟨t, ht, htover⟩
      refine ⟨t, (getElem?_set_eq_some_iff hs).mpr (Or.inr ⟨?_, ht⟩), htover⟩
      rintro rfl
      obtain rfl : s = t := Option.some.inj (hs.symm.trans ht)
      rw [hunder] at htover
      cases htover
    · rintro ⟨t, ht, htover⟩
      rcases (getElem?_set_eq_some_iff hs).mp ht with ⟨-, rfl⟩ | ⟨-, ht⟩
      · rw [hover] at htover
        cases htover
      · exact ⟨t, ht, htover⟩
  · rw [hlocks]
    exact h.returned
  · rw [← h.freed]
    apply List.map_congr_left
    intro i _
    exact key_update hs hkey i
  · rw [hlocks]
    exact h.balance

/-- A saga that ends has its key given back. -/
theorem finish (h : j.Agrees d) (hsound : d.Sound) (hs : d.sagas[saga]? = some s)
    (hunder : s.isOver = false) (hkey : s'.key = s.key) (hover : s'.isOver = true) :
    (ReclaimJournal.mk j.accepted (j.ended ++ [saga]) (j.freed ++ [s.key])).Agrees
      (d.update saga s') := by
  have hheld : d.locks.isHeld s.key = true := hsound.isHeld hs hunder
  have hlocks : (d.update saga s').locks =
      { d.locks with held := d.locks.held.erase s.key, returned := d.locks.returned + 1 } := by
    rw [ReclaimDesk.update, hover, hkey, ← ReclaimLocks.giveBack_of_isHeld hheld]
    rfl
  have hnew : saga ∉ j.ended := by
    intro hmem
    obtain ⟨t, ht, htover⟩ := (h.mem_ended saga).mp hmem
    obtain rfl : s = t := Option.some.inj (hs.symm.trans ht)
    rw [hunder] at htover
    cases htover
  refine ⟨?_, ?_, ?_, ?_, ?_, ?_, ?_⟩
  · rw [← h.accepted]
    exact map_key_update hs hkey
  · rw [hlocks]
    exact h.taken
  · exact List.Nodup.append h.nodup (List.nodup_singleton saga) (List.disjoint_singleton.mpr hnew)
  · intro i
    show i ∈ j.ended ++ [saga] ↔ ∃ t, (d.sagas.set saga s')[i]? = some t ∧ t.isOver = true
    rw [List.mem_append, List.mem_singleton, h.mem_ended i]
    constructor
    · rintro (⟨t, ht, htover⟩ | rfl)
      · refine ⟨t, (getElem?_set_eq_some_iff hs).mpr (Or.inr ⟨?_, ht⟩), htover⟩
        rintro rfl
        exact hnew ((h.mem_ended i).mpr ⟨t, ht, htover⟩)
      · exact ⟨s', (getElem?_set_eq_some_iff hs).mpr (Or.inl ⟨rfl, rfl⟩), hover⟩
    · rintro ⟨t, ht, htover⟩
      rcases (getElem?_set_eq_some_iff hs).mp ht with ⟨rfl, -⟩ | ⟨-, ht⟩
      · exact Or.inr rfl
      · exact Or.inl ⟨t, ht, htover⟩
  · rw [hlocks]
    show d.locks.returned + 1 = (j.ended ++ [saga]).length
    rw [List.length_append, h.returned]
    rfl
  · show (j.ended ++ [saga]).map (fun i => (d.sagas.set saga s')[i]?.map Saga.key) =
      (j.freed ++ [s.key]).map some
    have hkeys : (fun i : Nat => (d.sagas.set saga s')[i]?.map Saga.key) =
        fun i => d.sagas[i]?.map Saga.key := by
      funext i
      exact key_update hs hkey i
    rw [hkeys, List.map_append, List.map_append, h.freed]
    simp [hs]
  · rw [hlocks]
    show d.locks.taken = d.locks.returned + 1 + (d.locks.held.erase s.key).length
    have hpos : 0 < d.locks.held.length :=
      List.length_pos_of_mem (ReclaimLocks.isHeld_iff.mp hheld)
    rw [List.length_erase_of_mem (ReclaimLocks.isHeld_iff.mp hheld), h.balance]
    omega

end ReclaimJournal.Agrees

namespace Node

variable {n₀ n m : Node} {j : ReclaimJournal}

/-- **The journal of a course agrees with the desk.** -/
theorem Journaled.agrees (h₀ : n₀.BeforeReclaims) (h : n₀.Journaled j n) : j.Agrees n.desk := by
  induction h with
  | start =>
      obtain ⟨plan, hdesk⟩ := h₀.desk
      rw [hdesk]
      exact .opened plan
  | @request n j hn key ih =>
      rw [reclaim]
      cases hrequest : n.desk.request key with
      | none => exact ih
      | some begun => exact ih.request hrequest
  | @act n m j number hn hmove ih =>
      have hsound := ((ReclaimsSoundly.of_beforeReclaims h₀).course hn.course).desk
      rcases aside_or_moved_of_move? hmove with haside | ⟨saga, ticket, s, s', -, hmoved⟩
      · have hsame : n.recordStep m j = j := by
          simp [recordStep, endedBy_of_desk_eq haside.desk,
            freedBy_of_locks_eq (congrArg ReclaimDesk.locks haside.desk)]
        rw [hsame, haside.desk]
        exact ih
      · have hunder := hmoved.step.isOver_eq_false
        have hkey := hmoved.step.key_eq
        rw [recordStep, hmoved.endedBy, hmoved.freedBy hsound, hmoved.desk]
        cases hover : s'.isOver with
        | true => exact ih.finish hsound hmoved.saga hunder hkey hover
        | false => simpa using ih.goOn hmoved.saga hunder hkey hover
  | @aside n m j _ haside ih =>
      rw [haside.desk]
      exact ih

/-! ### Requests -/

/-- A saga for a key is under way. -/
def HasSagaFor (n : Node) (key : ReclaimKey) : Prop :=
  ∃ s ∈ n.desk.sagas, s.isOver = false ∧ s.key = key

/-- A request for a key that is held does nothing at all. -/
theorem reclaim_of_isHeld {key : ReclaimKey} (h : n.desk.locks.isHeld key = true) :
    n.reclaim key = (n, none) := by
  have hnone : n.desk.request key = none := by
    rw [ReclaimDesk.request, (n.desk.locks.take?_eq_none_iff key).mpr h]
    rfl
  rw [reclaim, hnone]

/-- A request for any other key begins a saga. -/
theorem reclaim_of_not_isHeld {key : ReclaimKey} (h : n.desk.locks.isHeld key = false) :
    (n.reclaim key).2 = some n.desk.sagas.length ∧
      (n.reclaim key).1.desk.sagas = n.desk.sagas ++ [.ofKey key] := by
  have htake : n.desk.locks.take? key = some
      { n.desk.locks with held := key :: n.desk.locks.held, taken := n.desk.locks.taken + 1 } := by
    rw [ReclaimLocks.take?, h]
    rfl
  have hrequest := congrArg (Option.map fun locks =>
    (({ n.desk with locks, sagas := n.desk.sagas ++ [.ofKey key] } : ReclaimDesk),
      n.desk.sagas.length)) htake
  rw [reclaim, ReclaimDesk.request, hrequest]
  exact ⟨rfl, rfl⟩

/-- **The locks account for the sagas.**  In every course of a node, with requests for any keys
between the steps of the sagas and however these end,

* the held keys are those for which a saga is under way, and no key has two of them;
* a request is refused exactly when a saga for its key is under way, and then it changes nothing at
  all; otherwise it begins a saga;
* the locks have counted the accepted requests, each of which has begun one saga, and the sagas that
  have ended, each of which has done so once;
* each saga that has ended has given its key back once, in the step in which it ended, and no key
  was given back otherwise;
* as many keys are held as were taken and not given back. -/
theorem locks_account_for_sagas (h₀ : n₀.BeforeReclaims) (h : n₀.Journaled j n) :
    (n.desk.locks.held.Nodup ∧ ∀ key, key ∈ n.desk.locks.held ↔ n.HasSagaFor key) ∧
      (∀ (i k : Nat) (s t : Saga), n.desk.sagas[i]? = some s → n.desk.sagas[k]? = some t →
        s.isOver = false → t.isOver = false → s.key = t.key → i = k) ∧
      (∀ key, ((n.reclaim key).2 = none ↔ n.HasSagaFor key) ∧
        (n.HasSagaFor key → n.reclaim key = (n, none)) ∧
        (¬n.HasSagaFor key → (n.reclaim key).2 = some n.desk.sagas.length ∧
          (n.reclaim key).1.desk.sagas = n.desk.sagas ++ [.ofKey key])) ∧
      (n.desk.locks.taken = j.accepted.length ∧ n.desk.sagas.map Saga.key = j.accepted) ∧
      (n.desk.locks.returned = j.ended.length ∧ j.ended.Nodup ∧
        ∀ i, i ∈ j.ended ↔ ∃ s, n.desk.sagas[i]? = some s ∧ s.isOver = true) ∧
      j.ended.map (fun i => n.desk.sagas[i]?.map Saga.key) = j.freed.map some ∧
      (∀ m, n.Step m → (n.endedBy m = [] ∧ n.freedBy m = []) ∨
        ∃ saga s, n.desk.sagas[saga]? = some s ∧ n.endedBy m = [saga] ∧ n.freedBy m = [s.key]) ∧
      n.desk.locks.taken = n.desk.locks.returned + n.desk.locks.held.length := by
  have hsound : n.desk.Sound := ((ReclaimsSoundly.of_beforeReclaims h₀).course h.course).desk
  have hagrees : j.Agrees n.desk := h.agrees h₀
  have hheld : ∀ key, n.desk.locks.isHeld key = true ↔ n.HasSagaFor key := hsound.held_iff
  refine ⟨⟨hsound.nodup, fun key => ?_⟩, hsound.alone, fun key => ?_,
    ⟨hagrees.taken, hagrees.accepted⟩, ⟨hagrees.returned, hagrees.nodup, hagrees.mem_ended⟩,
    hagrees.freed, fun m hstep => hstep.frees hsound, hagrees.balance⟩
  · rw [← ReclaimLocks.isHeld_iff]
    exact hheld key
  · rw [← hheld key]
    cases hkey : n.desk.locks.isHeld key with
    | true =>
        rw [reclaim_of_isHeld hkey]
        exact ⟨⟨fun _ => rfl, fun _ => rfl⟩, fun _ => rfl, fun hfree => absurd rfl hfree⟩
    | false =>
        obtain ⟨hsome, hsagas⟩ := reclaim_of_not_isHeld hkey
        rw [hsome]
        refine ⟨⟨fun hnone => ?_, fun hheld => ?_⟩, fun hheld => ?_, fun _ => ⟨rfl, hsagas⟩⟩
        · cases hnone
        · cases hheld
        · cases hheld

/-- A table that is not served, beside one that is.  Its removal is asked for twice in a row,
the second time in vain, and again after the first saga has removed it. -/
theorem locks_account_for_second_request :
    let orders : ReclaimKey := .table "orders"
    let n₀ : Node :=
      starting ⟨⟨"runtime"⟩⟩ .empty ⟨.ofSeconds 1, .ofSeconds 60⟩
        ⟨.ofMillis 50, 2, 10, .ofSeconds 5⟩ ⟨3, .ofSeconds 1⟩
    let next (n : Node) : Node := (n.move? 0).getD n
    let served : Catalog := ⟨[("customers", [(0, ⟨["0_65535"]⟩)])]⟩
    let n₁ : Node := { n₀ with feed := n₀.feed.publish served }
    let twice : Node := ((n₁.reclaim orders).1.reclaim orders).1
    let removed : Node := next (next (next (next twice)))
    let n : Node := (removed.reclaim orders).1
    let j : ReclaimJournal := ⟨[orders, orders], [0], [orders]⟩
    n₀.BeforeReclaims ∧ n₀.Journaled j n ∧ (n₁.reclaim orders).1.HasSagaFor orders ∧
      ¬removed.HasSagaFor orders ∧ n.desk.locks.taken = 2 ∧ n.desk.locks.returned = 1 ∧
      n.desk.locks.held = [orders] := by
  intro orders n₀ next served n₁ twice removed n j
  have h₀ : n₀.BeforeReclaims := beforeReclaims_starting ..
  have hnext : ∀ k : Node, (k.move? 0).isSome = true → k.move? 0 = some (next k) := by
    intro k hk
    obtain ⟨m, hm⟩ := Option.isSome_iff_exists.mp hk
    simp [next, hm]
  have h₁ : n₀.Journaled .blank n₁ := .aside .start (aside_publish n₀ served)
  have honce := h₁.request orders
  have hremoved := ((((honce.request orders).act (hnext _ (by decide))).act
    (hnext _ (by decide))).act (hnext _ (by decide))).act
    (hnext _ (by decide))
  have h : n₀.Journaled j n := (hremoved.request orders).of_eq (by decide)
  obtain ⟨⟨-, hheld⟩, -⟩ := locks_account_for_sagas h₀ honce
  obtain ⟨⟨-, hfree⟩, -⟩ := locks_account_for_sagas h₀ hremoved
  obtain ⟨-, -, -, ⟨htaken, -⟩, ⟨hreturned, -⟩, -, -, -⟩ := locks_account_for_sagas h₀ h
  refine ⟨h₀, h, (hheld orders).mp (by decide), ?_, htaken, hreturned, by decide⟩
  rw [← hfree orders]
  decide

end Node

end ShardKeeper
