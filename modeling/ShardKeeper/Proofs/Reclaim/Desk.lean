import ShardKeeper.Proofs.Numbered
import ShardKeeper.Proofs.Reclaim.Saga
import ShardKeeper.Reclaim.Desk

/-!
# Who holds which key

A saga holds the lock of its key from the request to its end, and it is the only
one with that key.  `ReclaimDesk.Sound` says so of a desk as a whole, and
everything that happens at a desk keeps it: `Sound.request`, `Sound.move` and
`Sound.finishRemoval`.
-/

namespace ShardKeeper

namespace ReclaimLocks

theorem isHeld_iff {l : ReclaimLocks} {key : ReclaimKey} : l.isHeld key = true ↔ key ∈ l.held :=
  List.contains_iff_mem

theorem take?_eq_some {l m : ReclaimLocks} {key : ReclaimKey} (h : l.take? key = some m) :
    l.isHeld key = false ∧ m = { l with held := key :: l.held, taken := l.taken + 1 } := by
  unfold take? at h
  split at h
  · cases h
  · rename_i hfree
    exact ⟨by simpa using hfree, (Option.some.inj h).symm⟩

theorem isHeld_giveBack {l : ReclaimLocks} (hnodup : l.held.Nodup) (key other : ReclaimKey) :
    (l.giveBack key).isHeld other = true ↔ other ≠ key ∧ l.isHeld other = true := by
  rw [giveBack]
  split
  · rw [isHeld_iff, isHeld_iff, hnodup.mem_erase_iff]
  · refine ⟨fun hother => ⟨?_, hother⟩, And.right⟩
    rintro rfl
    contradiction

theorem nodup_giveBack {l : ReclaimLocks} (hnodup : l.held.Nodup) (key : ReclaimKey) :
    (l.giveBack key).held.Nodup := by
  rw [giveBack]
  split
  · exact hnodup.erase key
  · exact hnodup

end ReclaimLocks

namespace Saga

variable {plan : ReclaimPlan} {now : Instant} {cancelled : Bool} {catalog : Option Catalog}
variable {s s' : Saga} {effect : SagaEffect}

theorem isOver_eq_false_iff : s.isOver = false ↔ ∀ outcome, s.phase ≠ .ended outcome := by
  unfold isOver
  cases s.phase <;> simp [SagaPhase.outcome?]

/-- A saga that has ended does nothing. -/
theorem Moves.isOver_eq_false (h : Moves plan now cancelled catalog s s' effect) :
    s.isOver = false := by
  rw [isOver_eq_false_iff]
  rintro outcome hended
  cases h with
  | interrupt _ hphase => simp [hended, SagaPhase.due?] at hphase
  | _ => simp_all

end Saga

namespace ReclaimDesk

/-- The keys that are held are those of the sagas under way, and each of these has another one. -/
structure Sound (d : ReclaimDesk) : Prop where
  nodup : d.locks.held.Nodup
  held_iff : ∀ key, d.locks.isHeld key = true ↔ ∃ s ∈ d.sagas, s.isOver = false ∧ s.key = key
  alone : ∀ (i j : Nat) (s t : Saga), d.sagas[i]? = some s → d.sagas[j]? = some t →
    s.isOver = false → t.isOver = false → s.key = t.key → i = j

variable {d d' : ReclaimDesk} {number : Nat} {now : Instant}

/-! ### What can happen at a desk -/

theorem request_eq_some {key : ReclaimKey} {saga : Nat} (h : d.request key = some (d', saga)) :
    ∃ locks, d.locks.take? key = some locks ∧ saga = d.sagas.length ∧
      d' = { d with locks, sagas := d.sagas ++ [.ofKey key] } := by
  obtain ⟨locks, hlocks, heq⟩ := Option.map_eq_some_iff.mp h
  cases heq
  exact ⟨locks, hlocks, rfl, rfl⟩

/-- A move at a desk is a step of one of its sagas. -/
theorem move?_eq_some {cancelled : Bool} {catalog : Option Catalog} {effect : SagaEffect}
    (h : d.move? number now cancelled catalog = some (d', effect)) :
    ∃ s s', d.sagas[number]? = some s ∧
      Saga.Moves d.plan now cancelled catalog s s' effect ∧ d' = d.update number s' := by
  obtain ⟨s, hs, hrest⟩ := Option.bind_eq_some_iff.mp h
  obtain ⟨⟨s', e⟩, hnext, heq⟩ := Option.bind_eq_some_iff.mp hrest
  cases heq
  exact ⟨s, s', hs, Saga.moves_of_next? hnext, rfl⟩

theorem finishRemoval_of_removing {s : Saga} (hs : d.sagas[number]? = some s)
    (hphase : s.phase = .removing) (error : Option String) :
    d.finishRemoval number now error = d.update number (s.afterRemoval d.plan now error) := by
  rw [finishRemoval, hs]
  exact if_pos hphase

/-! ### The invariant -/

namespace Sound

theorem opened (plan : ReclaimPlan) : Sound (.opened plan) where
  nodup := List.nodup_nil
  held_iff := by
    intro key
    simp [ReclaimDesk.opened, ReclaimLocks.isHeld, ReclaimLocks.empty]
  alone := by
    intro i j s t hs
    simp [ReclaimDesk.opened] at hs

theorem isHeld (h : Sound d) {s : Saga} (hs : d.sagas[number]? = some s)
    (hunder : s.isOver = false) : d.locks.isHeld s.key = true :=
  (h.held_iff s.key).mpr ⟨s, List.mem_of_getElem? hs, hunder, rfl⟩

theorem request (h : Sound d) {key : ReclaimKey} {saga : Nat}
    (hrequest : d.request key = some (d', saga)) : Sound d' := by
  obtain ⟨locks, hlocks, rfl, rfl⟩ := request_eq_some hrequest
  obtain ⟨hfree, hheld⟩ := ReclaimLocks.take?_eq_some hlocks
  have hnone : ∀ s ∈ d.sagas, s.isOver = false → s.key ≠ key := by
    rintro s hs hunder rfl
    rw [(h.held_iff s.key).mpr ⟨s, hs, hunder, rfl⟩] at hfree
    cases hfree
  refine ⟨?_, ?_, ?_⟩
  · rw [hheld]
    refine List.nodup_cons.mpr ⟨fun hmem => ?_, h.nodup⟩
    rw [ReclaimLocks.isHeld_iff.mpr hmem] at hfree
    cases hfree
  · intro other
    rw [ReclaimLocks.isHeld_of_take? hlocks, Bool.or_eq_true, beq_iff_eq, h.held_iff other]
    constructor
    · rintro (rfl | ⟨s, hs, hunder, hkey⟩)
      · exact ⟨.ofKey other, by simp, rfl, rfl⟩
      · exact ⟨s, List.mem_append_left _ hs, hunder, hkey⟩
    · rintro ⟨s, hs, hunder, hkey⟩
      rcases List.mem_append.mp hs with hold | hnew
      · exact Or.inr ⟨s, hold, hunder, hkey⟩
      · rw [List.mem_singleton.mp hnew] at hkey
        exact Or.inl hkey.symm
  · intro i j s t hs ht hsunder htunder hkey
    rcases getElem?_concat_eq_some_iff.mp hs with ⟨rfl, rfl⟩ | hs
    · rcases getElem?_concat_eq_some_iff.mp ht with ⟨rfl, rfl⟩ | ht
      · rfl
      · exact absurd hkey.symm (hnone t (List.mem_of_getElem? ht) htunder)
    · rcases getElem?_concat_eq_some_iff.mp ht with ⟨rfl, rfl⟩ | ht
      · exact absurd hkey (hnone s (List.mem_of_getElem? hs) hsunder)
      · exact h.alone i j s t hs ht hsunder htunder hkey

/-- A saga under way may move on, or end and give its key back. -/
theorem update (h : Sound d) {s s' : Saga} (hs : d.sagas[number]? = some s)
    (hunder : s.isOver = false) (hkey : s'.key = s.key) : Sound (d.update number s') := by
  have hplace : ∀ {i : Nat} {t : Saga}, (d.update number s').sagas[i]? = some t ↔
      (i = number ∧ t = s') ∨ (i ≠ number ∧ d.sagas[i]? = some t) :=
    getElem?_set_eq_some_iff hs
  refine ⟨?_, ?_, ?_⟩
  · rw [ReclaimDesk.update]
    split
    · exact ReclaimLocks.nodup_giveBack h.nodup _
    · exact h.nodup
  · intro key
    have hlocks : (d.update number s').locks.isHeld key = true ↔
        d.locks.isHeld key = true ∧ (s'.isOver = true → key ≠ s.key) := by
      rw [ReclaimDesk.update, ← hkey]
      cases hover : s'.isOver with
      | true => simp [ReclaimLocks.isHeld_giveBack h.nodup, and_comm]
      | false => simp
    rw [hlocks, h.held_iff key]
    constructor
    · rintro ⟨⟨t, ht, htunder, rfl⟩, hother⟩
      obtain ⟨i, hi⟩ := List.mem_iff_getElem?.mp ht
      rcases eq_or_ne i number with rfl | hne
      · obtain rfl : s = t := Option.some.inj (hs.symm.trans hi)
        refine ⟨s', List.mem_of_getElem? (hplace.mpr (Or.inl ⟨rfl, rfl⟩)), ?_, hkey⟩
        exact Bool.eq_false_iff.mpr fun hover => hother hover rfl
      · exact ⟨t, List.mem_of_getElem? (hplace.mpr (Or.inr ⟨hne, hi⟩)), htunder, rfl⟩
    · rintro ⟨t, ht, htunder, rfl⟩
      obtain ⟨i, hi⟩ := List.mem_iff_getElem?.mp ht
      -- the key that is given back is that of no other saga under way
      rcases hplace.mp hi with ⟨rfl, rfl⟩ | ⟨hne, hi⟩
      · refine ⟨⟨s, List.mem_of_getElem? hs, hunder, hkey.symm⟩, fun hover => ?_⟩
        rw [htunder] at hover
        cases hover
      · refine ⟨⟨t, List.mem_of_getElem? hi, htunder, rfl⟩, fun _ hsame => hne ?_⟩
        exact h.alone i number t s hi hs htunder hunder hsame
  · intro i j t u ht hu htunder huunder hsame
    rcases hplace.mp ht with ⟨hi, rfl⟩ | ⟨hi, htold⟩
    · rcases hplace.mp hu with ⟨hj, rfl⟩ | ⟨hj, huold⟩
      · exact hi.trans hj.symm
      · exact absurd (h.alone j number u s huold hs huunder hunder (hsame.symm.trans hkey)) hj
    · rcases hplace.mp hu with ⟨hj, rfl⟩ | ⟨hj, huold⟩
      · exact absurd (h.alone i number t s htold hs htunder hunder (hsame.trans hkey)) hi
      · exact h.alone i j t u htold huold htunder huunder hsame

theorem move (h : Sound d) {cancelled : Bool} {catalog : Option Catalog} {effect : SagaEffect}
    (hmove : d.move? number now cancelled catalog = some (d', effect)) : Sound d' := by
  obtain ⟨s, s', hs, hmoves, rfl⟩ := move?_eq_some hmove
  exact h.update hs hmoves.isOver_eq_false hmoves.key_eq

theorem finishRemoval (h : Sound d) (number : Nat) (now : Instant) (error : Option String) :
    Sound (d.finishRemoval number now error) := by
  rw [ReclaimDesk.finishRemoval]
  split
  · exact h
  · rename_i s hs
    split
    · rename_i hphase
      refine h.update hs ?_ (s.key_afterRemoval d.plan now error)
      simp [Saga.isOver, hphase, SagaPhase.outcome?]
    · exact h

end Sound

end ReclaimDesk

end ShardKeeper
