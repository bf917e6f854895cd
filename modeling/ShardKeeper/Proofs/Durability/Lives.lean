import Mathlib.Data.List.Chain
import ShardKeeper.Durability.MemoryStore
import ShardKeeper.Proofs.Durability.Course

/-!
# A ledger over several lives

A shard may stop at any moment, and what its ledger held in memory is gone then.
The next life opens a new ledger on the store that the last one has left.  This
file follows a ledger through any number of lives, with attempts to store that
may fail.

## Main definitions

* `CommitStore` — a store that takes a commit point as a whole or not at all.
* `CommitStore.logged` — the same store with a list of all attempts to save.
* `LifeEvent`, `CommitStore.lives` — several lives over one store.
* `CommitStore.Lasting` — the invariant that ties the ledger to the store.

## Main result

`reopened_at_last_record`: at whatever moment a ledger is opened again, it has
the commit point that was saved last.

## Design notes

The list of attempts stands beside the store, where `save` writes to it, so it
holds what was really handed to the store.  A ledger that is stopped inside an
attempt to store leaves the store as it was before the attempt or as it is after
it; for the next life both are stops between two steps.
-/

namespace ShardKeeper

/-- A store that takes a commit point as a whole or not at all.  What it loads is the record it
holds, and the commit point of a shard that has never committed while it holds none. -/
structure CommitStore (σ ε : Type) where
  record? : σ → Option CommitPoint
  load : σ → Except ε CommitPoint
  save : σ → CommitPoint → σ × Except ε Unit
  eq_of_load {store : σ} {point : CommitPoint} (h : load store = .ok point) :
    point = (record? store).getD .unknown
  record_of_taken {store : σ} {point : CommitPoint} (h : (save store point).2 = .ok ()) :
    record? (save store point).1 = some point
  record_of_failed {store : σ} {point : CommitPoint} {e : ε} (h : (save store point).2 = .error e) :
    record? (save store point).1 = record? store

/-- The store in memory, with all its failures. -/
def MemoryStore.commitStore : CommitStore MemoryStore Unit where
  record? s := some s.point
  load := load
  save := store
  eq_of_load {s point} h := by
    rw [load] at h
    split at h
    · cases h
    · exact (Except.ok.inj h).symm
  record_of_taken {s point} h := by
    rw [store] at h ⊢
    cases hfail : s.failingStores with
    | zero => rfl
    | succ n =>
        rw [hfail] at h
        cases h
  record_of_failed {s point e} h := by
    rw [store] at h ⊢
    cases hfail : s.failingStores with
    | zero =>
        rw [hfail] at h
        cases h
    | succ n => rfl

/-- An attempt to save: what was handed to the store, and whether it was taken. -/
structure SaveAttempt where
  record : CommitPoint
  taken : Bool
deriving DecidableEq

/-- The records that were taken, oldest first. -/
def SaveAttempt.saved (attempts : List SaveAttempt) : List CommitPoint :=
  (attempts.filter SaveAttempt.taken).map SaveAttempt.record

theorem SaveAttempt.saved_concat (attempts : List SaveAttempt) (a : SaveAttempt) :
    saved (attempts ++ [a]) = saved attempts ++ if a.taken then [a.record] else [] := by
  rw [saved, List.filter_append, List.map_append, List.filter_singleton]
  cases a.taken <;> rfl

/-! ### What an attempt to store comes to -/

namespace CommitLedger

variable {σ ε : Type}

/-- An attempt to store has nothing to store, or is taken, or fails and leaves the ledger alone. -/
theorem persist_cases (l : CommitLedger) (store : σ) (save : σ → CommitPoint → σ × Except ε Unit) :
    (l.point.checkpoint < 0 ∧ l.persist store save = (l, store, .ok false)) ∨
    (0 ≤ l.point.checkpoint ∧ (save store l.point).2 = .ok () ∧
      l.persist store save = (l.stored, (save store l.point).1, .ok true)) ∨
    (0 ≤ l.point.checkpoint ∧ ∃ e, (save store l.point).2 = .error e ∧
      l.persist store save = (l, (save store l.point).1, .error e)) := by
  rw [persist, recordToStore?]
  by_cases hunknown : l.point.checkpoint < 0
  · exact Or.inl ⟨hunknown, by rw [if_pos hunknown]⟩
  · rw [if_neg hunknown]
    have hknown := Int.not_lt.mp hunknown
    dsimp only
    rcases save store l.point with ⟨after, e | _⟩
    · exact Or.inr (Or.inr ⟨hknown, e, rfl, rfl⟩)
    · exact Or.inr (Or.inl ⟨hknown, rfl, rfl⟩)

/-- A flush is such an attempt or does nothing. -/
theorem flush_cases (l : CommitLedger) (force : Bool) (store : σ)
    (save : σ → CommitPoint → σ × Except ε Unit) :
    l.flush force store save = (l, store, .ok false) ∨
      l.flush force store save = l.persist store save := by
  rw [flush]
  split
  · exact Or.inl rfl
  · exact Or.inr rfl

theorem checkpoint_le_observe (l : CommitLedger) (marker : Option VersionMarker) :
    l.point.checkpoint ≤ (l.observe marker).1.point.checkpoint := by
  rw [checkpoint_observe, List.foldl_max]
  exact Int.le_max_left ..

end CommitLedger

namespace CommitStore

variable {σ ε : Type} (S : CommitStore σ ε)

/-- The same store with a list of all attempts to save beside it. -/
def logged : CommitStore (σ × List SaveAttempt) ε where
  record? s := S.record? s.1
  load s := S.load s.1
  save s point :=
    let (after, result) := S.save s.1 point
    ((after, s.2 ++ [⟨point, result.isOk⟩]), result)
  eq_of_load h := S.eq_of_load h
  record_of_taken h := S.record_of_taken h
  record_of_failed h := S.record_of_failed h

theorem logged_save (s : σ × List SaveAttempt) (point : CommitPoint) :
    S.logged.save s point =
      (((S.save s.1 point).1, s.2 ++ [⟨point, (S.save s.1 point).2.isOk⟩]),
        (S.save s.1 point).2) := rfl

/-! ### Lives -/

/-- A ledger opened on what a store loads. -/
def begun (maxSamples maxAge : Nat) (store : σ) : Except ε (LedgerCourse σ) :=
  (S.load store).map fun point => .begin maxSamples maxAge point store

end CommitStore

/-- What can happen in the lives of a ledger. -/
inductive LifeEvent where
  /-- Something is done with the ledger of the present life. -/
  | step (s : LedgerStep)
  /-- The present life ends, and the next one begins with bounds of its own. -/
  | restart (maxSamples maxAge : Nat)
deriving DecidableEq

namespace CommitStore

variable {σ ε : Type} (S : CommitStore σ ε)

/-- The present life after an event. -/
def next (c : LedgerCourse σ) : LifeEvent → Except ε (LedgerCourse σ)
  | .step s => .ok (c.step S.save s).1
  | .restart maxSamples maxAge => S.begun maxSamples maxAge c.store

variable {S} in
/-- A life begins with what the store holds. -/
theorem eq_of_begun {maxSamples maxAge : Nat} {store : σ} {c : LedgerCourse σ}
    (h : S.begun maxSamples maxAge store = .ok c) :
    c.ledger.point = (S.record? store).getD .unknown ∧ c.store = store := by
  rw [begun] at h
  cases hload : S.load store with
  | error e =>
      rw [hload] at h
      cases h
  | ok point =>
      rw [hload] at h
      cases h
      exact ⟨S.eq_of_load hload, rfl⟩

/-- The life that stands at the end of some events, the first of which happens to a ledger opened on
`store`. -/
def lives (store : σ) (maxSamples maxAge : Nat) (events : List LifeEvent) :
    Except ε (LedgerCourse σ) := do
  events.foldlM S.next (← S.begun maxSamples maxAge store)

/-- What holds in every life over a store that held `first` before all of them. -/
structure Lasting (first : Option CommitPoint) (c : LedgerCourse (σ × List SaveAttempt)) :
    Prop where
  record : S.record? c.store.1 = (SaveAttempt.saved c.store.2).getLast?.or first
  known : ∀ a ∈ c.store.2, 0 ≤ a.record.checkpoint
  rise : ((first.getD .unknown).checkpoint ::
    (SaveAttempt.saved c.store.2).map CommitPoint.checkpoint).IsChain (· ≤ ·)
  behind : ((S.record? c.store.1).getD .unknown).checkpoint ≤ c.ledger.point.checkpoint

namespace Lasting

variable {S} {first : Option CommitPoint} {c : LedgerCourse (σ × List SaveAttempt)}

/-- The next life begins where the last one has left the store. -/
theorem begun (h : S.Lasting first c) {maxSamples maxAge : Nat}
    {d : LedgerCourse (σ × List SaveAttempt)}
    (hd : S.logged.begun maxSamples maxAge c.store = .ok d) : S.Lasting first d := by
  obtain ⟨hpoint, hstore⟩ := eq_of_begun hd
  refine ⟨hstore ▸ h.record, hstore ▸ h.known, hstore ▸ h.rise, ?_⟩
  rw [hpoint, hstore]
  exact Int.le_refl _

/-- The record in the store is the last of those that rise. -/
theorem getLast?_rise (h : S.Lasting first c) :
    ((first.getD .unknown).checkpoint ::
      (SaveAttempt.saved c.store.2).map CommitPoint.checkpoint).getLast? =
        some ((S.record? c.store.1).getD .unknown).checkpoint := by
  rw [h.record, List.getLast?_cons, List.getLast?_map]
  cases (SaveAttempt.saved c.store.2).getLast? <;> rfl

/-- A step that leaves the store alone and does not take the commit point back. -/
theorem of_store_eq (h : S.Lasting first c) {d : LedgerCourse (σ × List SaveAttempt)}
    (hstore : d.store = c.store) (hle : c.ledger.point.checkpoint ≤ d.ledger.point.checkpoint) :
    S.Lasting first d where
  record := hstore ▸ h.record
  known := hstore ▸ h.known
  rise := hstore ▸ h.rise
  behind := Int.le_trans (hstore ▸ h.behind) hle

/-- Whatever comes of an attempt to save, nothing with an unknown checkpoint was handed over. -/
theorem known_of_attempted (h : S.Lasting first c) (hknown : 0 ≤ c.ledger.point.checkpoint) :
    ∀ a ∈ (S.logged.save c.store c.ledger.point).1.2, 0 ≤ a.record.checkpoint := by
  intro a ha
  rcases List.mem_append.mp ha with hold | hnew
  · exact h.known a hold
  · rw [List.mem_singleton.mp hnew]
    exact hknown

/-- A commit point that is not taken leaves the record as it was. -/
theorem failed (h : S.Lasting first c) (hknown : 0 ≤ c.ledger.point.checkpoint)
    {l : CommitLedger} (hl : l.point = c.ledger.point) {e : ε}
    (hresult : (S.save c.store.1 c.ledger.point).2 = .error e) :
    S.Lasting first
      { c with ledger := l, store := (S.logged.save c.store c.ledger.point).1 } := by
  have hrecord := S.record_of_failed hresult
  have hsaved : SaveAttempt.saved (S.logged.save c.store c.ledger.point).1.2 =
      SaveAttempt.saved c.store.2 := by
    rw [logged_save, SaveAttempt.saved_concat, hresult]
    exact List.append_nil _
  refine ⟨?_, h.known_of_attempted hknown, ?_, ?_⟩
  · rw [hsaved, ← h.record]
    exact hrecord
  · rw [hsaved]
    exact h.rise
  · rw [hl]
    exact hrecord ▸ h.behind

/-- A commit point that is taken becomes the record. -/
theorem taken (h : S.Lasting first c) (hknown : 0 ≤ c.ledger.point.checkpoint)
    {l : CommitLedger} (hl : l.point = c.ledger.point)
    (hresult : (S.save c.store.1 c.ledger.point).2 = .ok ()) :
    S.Lasting first
      { c with ledger := l, store := (S.logged.save c.store c.ledger.point).1 } := by
  have hrecord := S.record_of_taken hresult
  have hsaved : SaveAttempt.saved (S.logged.save c.store c.ledger.point).1.2 =
      SaveAttempt.saved c.store.2 ++ [c.ledger.point] := by
    rw [logged_save, SaveAttempt.saved_concat, hresult]
    rfl
  refine ⟨?_, h.known_of_attempted hknown, ?_, ?_⟩
  · rw [hsaved, List.getLast?_concat, Option.some_or]
    exact hrecord
  · rw [hsaved, List.map_append, ← List.cons_append]
    -- the record so far is the last of those that rise, and no greater than the commit point
    refine h.rise.append (List.isChain_singleton _) fun x hx y hy => ?_
    rw [h.getLast?_rise] at hx
    obtain rfl := Option.some.inj hx
    obtain rfl := Option.some.inj hy
    exact h.behind
  · rw [hl]
    show ((S.record? (S.save c.store.1 c.ledger.point).1).getD .unknown).checkpoint ≤ _
    rw [hrecord]
    exact Int.le_refl _

/-- **An attempt to save.**  If the commit point is taken it becomes the record, and otherwise the
record stays. -/
theorem attempted (h : S.Lasting first c) (hknown : 0 ≤ c.ledger.point.checkpoint)
    {l : CommitLedger} (hl : l.point = c.ledger.point) :
    S.Lasting first
      { c with ledger := l, store := (S.logged.save c.store c.ledger.point).1 } := by
  cases hresult : (S.save c.store.1 c.ledger.point).2 with
  | error e => exact h.failed hknown hl hresult
  | ok taken => exact h.taken hknown hl hresult

theorem persist (h : S.Lasting first c) :
    S.Lasting first (c.settle (c.ledger.persist c.store S.logged.save)).1 := by
  rcases c.ledger.persist_cases c.store S.logged.save with
    ⟨-, houtcome⟩ | ⟨hknown, -, houtcome⟩ | ⟨hknown, e, -, houtcome⟩
  · rw [houtcome]
    exact h
  · rw [houtcome]
    exact h.attempted hknown rfl
  · rw [houtcome]
    exact h.attempted hknown rfl

theorem step (h : S.Lasting first c) (s : LedgerStep) :
    S.Lasting first (c.step S.logged.save s).1 := by
  cases s with
  | sample now checkpoint => exact h.of_store_eq rfl (Int.le_refl _)
  | observe marker => exact h.of_store_eq rfl (c.ledger.checkpoint_le_observe marker)
  | refresh now checkpoint marker =>
      exact h.of_store_eq rfl ((c.take ⟨now, checkpoint⟩).1.ledger.checkpoint_le_observe marker)
  | persist => exact h.persist
  | flush force =>
      rcases c.ledger.flush_cases force c.store S.logged.save with hidle | hpersist
      · rw [LedgerCourse.step, hidle]
        exact h
      · rw [LedgerCourse.step, hpersist]
        exact h.persist

theorem next (h : S.Lasting first c) {e : LifeEvent} {d : LedgerCourse (σ × List SaveAttempt)}
    (hd : S.logged.next c e = .ok d) : S.Lasting first d := by
  cases e with
  | step s =>
      cases hd
      exact h.step s
  | restart maxSamples maxAge => exact h.begun hd

theorem events (h : S.Lasting first c) {events : List LifeEvent}
    {d : LedgerCourse (σ × List SaveAttempt)} (hd : events.foldlM S.logged.next c = .ok d) :
    S.Lasting first d := by
  induction events generalizing c with
  | nil =>
      cases hd
      exact h
  | cons e events ih =>
      rw [List.foldlM_cons] at hd
      cases hnext : S.logged.next c e with
      | error failure =>
          rw [hnext] at hd
          cases hd
      | ok between =>
          rw [hnext] at hd
          exact ih (h.next hnext) hd

end Lasting

variable {S}

/-- **Every life over a store keeps the invariant.** -/
theorem lasting_of_lives {store : σ} {maxSamples maxAge : Nat} {events : List LifeEvent}
    {c : LedgerCourse (σ × List SaveAttempt)}
    (hc : S.logged.lives (store, []) maxSamples maxAge events = .ok c) :
    S.Lasting (S.record? store) c := by
  rw [lives] at hc
  cases hbegun : S.logged.begun maxSamples maxAge (store, []) with
  | error e =>
      rw [hbegun] at hc
      cases hc
  | ok d =>
      rw [hbegun] at hc
      obtain ⟨hpoint, hstore⟩ := eq_of_begun hbegun
      have hfirst : S.Lasting (S.record? store) d := by
        refine ⟨?_, ?_, ?_, ?_⟩
        · rw [hstore]
          rfl
        · rw [hstore]
          exact fun a ha => absurd ha List.not_mem_nil
        · rw [hstore]
          exact List.isChain_singleton _
        · rw [hstore, hpoint]
          exact Int.le_refl _
      exact hfirst.events hc

/-- An outcome of an attempt to store, with a test whether that is called for or without. -/
def IsOutcome (c : LedgerCourse σ) (outcome : CommitLedger × σ × Except ε Bool) : Prop :=
  outcome = c.ledger.persist c.store S.save ∨ ∃ force, outcome = c.ledger.flush force c.store S.save

theorem IsOutcome.cases {c : LedgerCourse σ} {outcome : CommitLedger × σ × Except ε Bool}
    (h : S.IsOutcome c outcome) :
    outcome = (c.ledger, c.store, .ok false) ∨
    ((S.save c.store c.ledger.point).2 = .ok () ∧
      outcome = (c.ledger.stored, (S.save c.store c.ledger.point).1, .ok true)) ∨
    ∃ e, (S.save c.store c.ledger.point).2 = .error e ∧
      outcome = (c.ledger, (S.save c.store c.ledger.point).1, .error e) := by
  have hpersist := c.ledger.persist_cases c.store S.save
  rcases h with rfl | ⟨force, rfl⟩
  · rcases hpersist with ⟨-, hidle⟩ | ⟨-, htaken⟩ | ⟨-, hfailed⟩
    · exact Or.inl hidle
    · exact Or.inr (Or.inl htaken)
    · exact Or.inr (Or.inr hfailed)
  · rcases c.ledger.flush_cases force c.store S.save with hidle | hflush
    · exact Or.inl hidle
    · rw [hflush]
      rcases hpersist with ⟨-, hidle⟩ | ⟨-, htaken⟩ | ⟨-, hfailed⟩
      · exact Or.inl hidle
      · exact Or.inr (Or.inl htaken)
      · exact Or.inr (Or.inr hfailed)

variable (S)

/-- **A ledger is opened again at the record that was saved last.**  At any moment of any life over
a store, with the records saved so far over all lives:

* a ledger opened now has the commit point that was saved last, or what the store held at first, or
  that of a shard that has never committed; its checkpoint is not greater than that of the ledger
  which it replaces;
* nothing with an unknown checkpoint was ever handed to the store;
* the checkpoints in the store have never decreased;
* an attempt to store that succeeds adds the commit point to what was saved, one that fails leaves
  the commit point, the need for a flush and the record as they were, and one that finds nothing to
  store changes nothing. -/
theorem reopened_at_last_record (store : σ) (maxSamples maxAge : Nat) (events : List LifeEvent)
    (c : LedgerCourse (σ × List SaveAttempt))
    (hc : S.logged.lives (store, []) maxSamples maxAge events = .ok c) :
    let first := (S.record? store).getD .unknown
    let saved := SaveAttempt.saved c.store.2
    (∀ maxSamples maxAge d, S.logged.begun maxSamples maxAge c.store = .ok d →
      d.ledger.point = saved.getLast?.getD first ∧
        d.ledger.point.checkpoint ≤ c.ledger.point.checkpoint) ∧
    (∀ a ∈ c.store.2, 0 ≤ a.record.checkpoint) ∧
    (S.record? c.store.1).getD .unknown = saved.getLast?.getD first ∧
    (first.checkpoint :: saved.map CommitPoint.checkpoint).Pairwise (· ≤ ·) ∧
    ∀ outcome, S.logged.IsOutcome c outcome →
      match outcome.2.2 with
      | .ok true => SaveAttempt.saved outcome.2.1.2 = saved ++ [c.ledger.point]
      | .ok false => outcome.1 = c.ledger ∧ outcome.2.1 = c.store
      | .error _ => outcome.1.point = c.ledger.point ∧
          outcome.1.needsFlush = c.ledger.needsFlush ∧
          S.record? outcome.2.1.1 = S.record? c.store.1 := by
  intro first saved
  have h := lasting_of_lives hc
  have hlast : (S.record? c.store.1).getD .unknown = saved.getLast?.getD first := by
    rw [h.record, Option.getD_or]
  refine ⟨fun maxSamples maxAge d hd => ?_, h.known, hlast, h.rise.pairwise, ?_⟩
  · have hpoint : d.ledger.point = (S.record? c.store.1).getD .unknown := (eq_of_begun hd).1
    refine ⟨hpoint.trans hlast, ?_⟩
    rw [hpoint]
    exact h.behind
  · intro outcome houtcome
    rcases houtcome.cases with rfl | ⟨htaken, rfl⟩ | ⟨e, hfailed, rfl⟩
    · exact ⟨rfl, rfl⟩
    · show SaveAttempt.saved (S.logged.save c.store c.ledger.point).1.2 = _
      rw [logged_save, SaveAttempt.saved_concat,
        show (S.save c.store.1 c.ledger.point).2 = .ok () from htaken]
      rfl
    · exact ⟨rfl, rfl, S.record_of_failed hfailed⟩

/-- Three advances over two lives, from a record of which only the checkpoint is known: the first
attempt to store fails and its advance is lost, the second succeeds and is found again, and the last
advance was not stored. -/
theorem reopened_after_failed_save :
    let store : MemoryStore := { MemoryStore.holding ⟨-1, 0, 5⟩ with failingStores := 1 }
    let events : List LifeEvent :=
      [.step (.refresh 1000 7 (some ⟨1, some 1500⟩)), .step (.flush false), .restart 4 1000,
        .step (.refresh 2000 9 (some ⟨2, some 2000⟩)), .step .persist,
        .step (.refresh 3000 12 (some ⟨3, some 3000⟩)), .step (.sample 3500 15)]
    ∃ c d, MemoryStore.commitStore.logged.lives (store, []) 8 60000 events = .ok c ∧
      c.ledger.point = ⟨3000, 3, 12⟩ ∧
      c.store.2 = [⟨⟨1500, 1, 7⟩, false⟩, ⟨⟨2000, 2, 9⟩, true⟩] ∧
      MemoryStore.commitStore.logged.begun 8 60000 c.store = .ok d ∧
      d.ledger.point = ⟨2000, 2, 9⟩ ∧ d.ledger.point.checkpoint ≤ c.ledger.point.checkpoint := by
  intro store events
  have hrun : (MemoryStore.commitStore.logged.lives (store, []) 8 60000 events).map
      (fun c => (c.ledger.point, c.store)) =
        .ok (⟨3000, 3, 12⟩, ⟨⟨2000, 2, 9⟩, 1, 0, false⟩,
          [⟨⟨1500, 1, 7⟩, false⟩, ⟨⟨2000, 2, 9⟩, true⟩]) := by
    decide
  cases hc : MemoryStore.commitStore.logged.lives (store, []) 8 60000 events with
  | error e =>
      rw [hc] at hrun
      cases hrun
  | ok c =>
      rw [hc] at hrun
      obtain ⟨hpoint, hstore⟩ := Prod.mk.inj (Except.ok.inj hrun)
      have hmain := (MemoryStore.commitStore.reopened_at_last_record store 8 60000 events c hc).1
        8 60000 _ (by rw [hstore]; rfl)
      refine ⟨c, _, rfl, hpoint, congrArg Prod.snd hstore, by rw [hstore]; rfl, ?_⟩
      rw [hstore] at hmain
      exact hmain

end CommitStore

end ShardKeeper
