import ShardKeeper.Proofs.Node.Effects
import ShardKeeper.Proofs.Node.Exactness

/-!
# Closed shards at rest

Closing a shard does not stop a refresh of it that is under way.  Such a refresh
has seen the shard take operations and does not look again: it enters what it has
read into the ledger, and what is new there is stored, over whatever has been
stored in the meantime.  A closed shard is at rest once no such refresh is left
and nothing new is in its ledger.  From then on it stores nothing any more.

## Main definitions

* `CommitLedger.isPending` — whether there is something new to store.
* `Activity.isRefreshing` — whether an activity refreshes a shard whatever becomes of it.
* `Node.Rests` — a closed shard at rest.
* `Node.Stores` — a step in which a shard stores its commit point.
* `Node.CarefulStep` — a step that leaves what it closes at rest.
* `Node.Reads` — a step in which an opening reads a commit point.

## Main results

* `Node.Rests.serviceCourse` — what is at rest stays at rest.
* `Node.rests_closeShard` — when closing a shard brings it to rest.
* `Node.Reads.checkpoint_le` — no shard falls back behind what its opening has read.
* `Node.stores_nothing_once_closed` — what a closed shard does, and in which order shards store.
* `Node.record_replaced_by_closed_shard` — a closed shard that replaces the record of a later one.
-/

namespace ShardKeeper

/-! ### Ledgers with nothing new -/

namespace CommitLedger

variable {σ ε : Type} {l : CommitLedger}

/-- Whether there is something new to store: a commit point that is newer than the stored one, with
a known checkpoint. -/
def isPending (l : CommitLedger) : Bool := l.needsFlush && decide (0 ≤ l.point.checkpoint)

/-- Where nothing is new, a flush does nothing. -/
theorem flush_of_not_isPending (h : l.isPending = false) (store : σ)
    (save : σ → CommitPoint → σ × Except ε Unit) :
    l.flush false store save = (l, store, .ok false) := by
  rw [flush]
  split
  · rfl
  · rename_i hneeds
    have hunknown : l.point.checkpoint < 0 := by
      simp_all [isPending]
    rw [persist, recordToStore?, if_pos hunknown]

/-- A flush that does not fail leaves nothing new. -/
theorem isPending_flush {store : σ} {save : σ → CommitPoint → σ × Except ε Unit}
    (h : ∀ e, (l.flush false store save).2.2 ≠ .error e) :
    (l.flush false store save).1.isPending = false := by
  cases hpending : l.isPending with
  | false => rw [flush_of_not_isPending hpending, hpending]
  | true =>
      have hflush : l.flush false store save = l.persist store save := by
        rw [flush, if_neg]
        simp_all [isPending]
      rw [hflush] at h ⊢
      rcases l.persist_cases store save with ⟨hunknown, -⟩ | ⟨-, -, heq⟩ | ⟨-, e, -, heq⟩
      · simp_all [isPending]
        omega
      · rw [heq]
        simp [isPending, needsFlush, stored]
      · rw [heq] at h
        exact absurd rfl (h e)

/-- Nothing lowers the checkpoint. -/
theorem checkpoint_le_refresh (l : CommitLedger) (now checkpoint : Int)
    (marker : Option VersionMarker) :
    l.point.checkpoint ≤ (l.refresh now checkpoint marker).1.point.checkpoint := by
  have hsample : (l.sample now checkpoint).1.point = l.point := rfl
  rw [refresh, ← hsample]
  exact checkpoint_le_observe ..

end CommitLedger

/-! ### Refreshes under way -/

/-- Whether a refresh has seen that the shard takes operations, and has not ended. -/
def RefreshPhase.isUnderWay : RefreshPhase → Bool
  | .arriving | .done _ => false
  | _ => true

/-- Whether an activity is refreshing a shard, and goes on with that whatever becomes of the
shard. -/
def Activity.isRefreshing (shard : Nat) : Activity → Bool
  | .tending k _ _ (.refreshing _ phase) => k == shard && phase.isUnderWay
  | .refreshing k phase => k == shard && phase.isUnderWay
  | _ => false

/-- The shard that an activity is about. -/
def Activity.shard? : Activity → Option Nat
  | .tending shard .. | .writing shard .. | .querying shard .. | .refreshing shard ..
  | .reporting shard .. => some shard
  | _ => none

/-- The shard that an opening has opened. -/
def Activity.opened? : Activity → Option Nat
  | .opening _ _ (.done (.ok k)) => some k
  | _ => none

/-- What an opening has in hand, or has opened, is no further back than the checkpoint `c`.  One
that has failed has nothing. -/
def OpeningPhase.Keeps (shards : List HostedShard) (c : Int) : OpeningPhase → Prop
  | .arriving => False
  | .looking draft _ _ | .registering draft => c ≤ draft.ledger.point.checkpoint
  | .done (.ok k) => ∃ s, shards[k]? = some s ∧ c ≤ s.ledger.point.checkpoint
  | .done (.error _) => True

theorem OpeningPlan.point_draft {p : OpeningPlan} {token : Token}
    {load : RecordPlace → Except StorageFault CommitPoint} {draft : HostedShard}
    {condition : CatalogCondition} {point : CommitPoint}
    (h : p.draft token load = .ok (draft, condition)) (hload : load p.record = .ok point) :
    draft.ledger.point = point := by
  rw [OpeningPlan.draft, hload] at h
  split at h
  · cases h
  · cases h
    rfl

/-- The shard whose commit point an activity is about to store, if that is new. -/
def Activity.flushes? : Activity → Option Nat
  | .tending shard _ _ (.flushing _) => some shard
  | _ => none

theorem Activity.isRefreshing_of_isRequest {a : Activity} {shard : Nat} (h : a.isRequest = true) :
    a.isRefreshing shard = false := by
  unfold isRequest at h
  split at h <;> simp_all [isRefreshing, RefreshPhase.isUnderWay]

theorem Activity.isRefreshing_of_refresh? {a : Activity} {shard : Nat} {phase : RefreshPhase}
    (h : a.refresh? shard = some phase) (hphase : phase.isUnderWay = true) :
    a.isRefreshing shard = true := by
  unfold refresh? at h
  split at h
  · obtain ⟨rfl, heq⟩ := Option.ite_none_right_eq_some.mp h
    simp_all [isRefreshing]
  · obtain ⟨rfl, heq⟩ := Option.ite_none_right_eq_some.mp h
    simp_all [isRefreshing]
  · cases h

theorem Activity.isRefreshing_afterRefresh (k shard : Nat) (interval : Duration)
    (ticket : TaskTicket) (ticker : Ticker) (refresh : RefreshPhase) :
    (Activity.tending k interval ticket (.afterRefresh ticker refresh)).isRefreshing shard =
      (k == shard && refresh.isUnderWay) := by
  cases refresh with
  | done result => cases result <;> simp [LoopPhase.afterRefresh, isRefreshing,
      RefreshPhase.isUnderWay]
  | _ => rfl

namespace RefreshPhase

variable {s s' : HostedShard} {phase phase' : RefreshPhase} {reading : Reading}

/-- A refresh of a closed shard ends where it looks whether the shard takes operations. -/
theorem isUnderWay_next? (h : phase.next? s reading = some (s', phase'))
    (hphase : phase.isUnderWay = false) (hclosed : s.isClosed = true) :
    phase'.isUnderWay = false := by
  cases phase with
  | arriving =>
      have hrefused : s.refusal?.isSome = true := by simp [HostedShard.refusal?, hclosed]
      obtain ⟨-, rfl⟩ := Prod.mk.inj (Option.some.inj h)
      rw [if_pos hrefused]
      rfl
  | done => cases h
  | _ => cases hphase

end RefreshPhase

namespace Node

variable {n₀ n m p q : Node} {number k : Nat} {a b : Activity} {id : ShardId} {s : HostedShard}

/-! ### What a step does to the ledger of a shard -/

theorem setShard_eq_self (hs : n.roster.shards[k]? = some s) : n.setShard k s = n := by
  have hshards : n.roster.shards.modify k (fun _ => s) = n.roster.shards := by
    rw [List.modify_eq_set_getElem?, hs]
    exact set_eq_self hs
  show { n with roster := { n.roster with shards := n.roster.shards.modify k fun _ => s } } = n
  rw [hshards]

/-- What a step of the activity `a` leaves of a shard: its name, whether it is closed, and a ledger
that was left alone, refreshed or flushed. -/
structure Leaves (n : Node) (k : Nat) (a : Activity) (s s' : HostedShard) : Prop where
  id : s'.id = s.id
  isClosed : s'.isClosed = s.isClosed
  ledger : s'.ledger = s.ledger ∨
    (a.isRefreshing k = true ∧ ∃ checkpoint clock marker,
      s'.ledger = (s.ledger.refresh clock checkpoint marker).1) ∨
    s'.ledger = (s.ledger.flush false n (save s.record)).1

theorem Leaves.refl (n : Node) (k : Nat) (a : Activity) (s : HostedShard) : n.Leaves k a s s :=
  ⟨rfl, rfl, Or.inl rfl⟩

theorem Effect.leaves {s' : HostedShard} (h : n.Effect k a b s s') : n.Leaves k a s s' := by
  cases h with
  | none => exact .refl n k a s
  | hear => exact ⟨rfl, rfl, Or.inl rfl⟩
  | refresh ha hnext =>
      rcases HostedShard.refresh_cases hnext with
        ⟨_, rfl⟩ | ⟨checkpoint, clock, marker, rfl, rfl, -⟩
      · exact ⟨rfl, rfl, Or.inl rfl⟩
      · exact ⟨rfl, rfl, Or.inr (Or.inl
          ⟨Activity.isRefreshing_of_refresh? ha rfl, checkpoint, clock, marker, rfl⟩)⟩
  | flush => exact ⟨rfl, rfl, Or.inr (Or.inr rfl)⟩
  | @write operation =>
      rw [HostedShard.afterWrite]
      split
      · cases operation <;> exact ⟨rfl, rfl, Or.inl rfl⟩
      · split <;> exact ⟨rfl, rfl, Or.inl rfl⟩
  | report => exact ⟨rfl, rfl, Or.inl rfl⟩

/-! ### Flushes -/

theorem flush_of_not_isPending (hs : n.roster.shards[k]? = some s)
    (h : s.ledger.isPending = false) : n.flush k false = (n, .ok false) := by
  unfold flush
  rw [hs]
  show ((s.ledger.flush false n (save s.record)).2.1.setShard k
    { s with ledger := (s.ledger.flush false n (save s.record)).1 },
    (s.ledger.flush false n (save s.record)).2.2) = _
  rw [CommitLedger.flush_of_not_isPending h]
  exact Prod.ext (setShard_eq_self hs) rfl

/-- What a flush comes to. -/
theorem flush_snd (hs : n.roster.shards[k]? = some s) (force : Bool) :
    (n.flush k force).2 = (s.ledger.flush force n (save s.record)).2.2 := by
  rw [flush, hs]
  rfl

/-! ### At rest -/

/-- A closed shard at rest: no refresh of it is under way, and nothing new is in its ledger. -/
structure Rests (n : Node) (k : Nat) : Prop where
  shard : ∃ s, n.roster.shards[k]? = some s ∧ s.isClosed = true ∧ s.ledger.isPending = false
  idle : ∀ a ∈ n.activities, a.isRefreshing k = false

namespace Rests

theorem isClosed (h : n.Rests k) : n.roster.IsClosed k := by
  obtain ⟨s, hs, hclosed, -⟩ := h.shard
  exact ⟨s, hs, hclosed⟩

theorem flush_eq (h : n.Rests k) : n.flush k false = (n, .ok false) := by
  obtain ⟨s, hs, -, hpending⟩ := h.shard
  exact flush_of_not_isPending hs hpending

theorem acts (h : n.Rests k) (ha : n.activities[number]? = some a) (hacts : n.Acts number a b m) :
    m.Rests k := by
  obtain ⟨s, hs, hclosed, hpending⟩ := h.shard
  have hidle := h.idle a (List.mem_of_getElem? ha)
  refine ⟨?_, hacts.forall_activities ha h.idle ?_ fun _ _ _ => rfl⟩
  · obtain ⟨s', hs', heffect⟩ := hacts.effect hs
    have hleaves := heffect.leaves
    refine ⟨s', hs', hleaves.isClosed.trans hclosed, ?_⟩
    rcases hleaves.ledger with heq | ⟨hbusy, -⟩ | heq
    · rw [heq]
      exact hpending
    · rw [hidle] at hbusy
      cases hbusy
    · rw [heq, CommitLedger.flush_of_not_isPending hpending]
      exact hpending
  · -- a refresh of this shard that begins or arrives sees that it is closed
    have hrefresh : ∀ {shard : Nat} {phase phase' : RefreshPhase} {t t' : HostedShard},
        n.roster.shards[shard]? = some t → phase.next? t (n.reading t) = some (t', phase') →
        (shard == k && phase.isUnderWay) = false → (shard == k && phase'.isUnderWay) = false := by
      intro shard phase phase' t t' ht hnext hbefore
      by_cases hshard : shard = k
      · subst hshard
        obtain rfl : s = t := Option.some.inj (hs.symm.trans ht)
        simp only [beq_self_eq_true, Bool.true_and] at hbefore ⊢
        exact RefreshPhase.isUnderWay_next? hnext hbefore hclosed
      · simp [hshard]
    cases hacts with
    | loop hphase =>
        cases hphase with
        | wake => simp [Activity.isRefreshing, RefreshPhase.isUnderWay]
        | _ => rfl
    | loopRefresh ht hnext =>
        rw [Activity.isRefreshing_afterRefresh]
        exact hrefresh ht hnext hidle
    | refresh ht hnext => exact hrefresh ht hnext hidle
    | _ => rfl

theorem of_activities (h : n.Rests k) (hroster : m.roster = n.roster) {late : List Activity}
    (hactivities : m.activities = n.activities ++ late)
    (hlate : ∀ a ∈ late, a.isRefreshing k = false) : m.Rests k := by
  refine ⟨by rw [hroster]; exact h.shard, ?_⟩
  rw [hactivities]
  intro a ha
  rcases List.mem_append.mp ha with hold | hnew
  · exact h.idle a hold
  · exact hlate a hnew

end Rests

theorem Rests.closeShard (h : n.Rests k) (id : ShardId) : (n.closeShard id).1.Rests k := by
  obtain ⟨s, hs, hclosed, hpending⟩ := h.shard
  refine ⟨⟨_, shards_closeShard hs id, ?_⟩, by rw [activities_closeShard]; exact h.idle⟩
  split
  · rw [CommitLedger.flush_of_not_isPending hpending]
    exact ⟨rfl, hpending⟩
  · exact ⟨hclosed, hpending⟩

/-- **When closing a shard brings it to rest**: when no refresh of it is under way, and nothing that
is new in its ledger fails to be stored. -/
theorem rests_closeShard (hs : n.roster.shards[k]? = some s) (hfind : n.roster.find? id = some k)
    (hidle : ∀ a ∈ n.activities, a.isRefreshing k = false)
    (hflush : ∀ e, (n.flush k false).2 ≠ .error e) : (n.closeShard id).1.Rests k := by
  refine ⟨⟨_, shards_closeShard hs id, ?_⟩, by rw [activities_closeShard]; exact hidle⟩
  rw [if_pos hfind]
  refine ⟨rfl, CommitLedger.isPending_flush fun e he => hflush e ?_⟩
  rw [flush_snd hs]
  exact he

theorem Rests.servicePart (h : n.Rests k) (hpart : n.ServicePart m) : m.Rests k := by
  rcases hpart.cases with ⟨number, a, b, ha, hacts⟩ | ⟨plan, token, -, rfl⟩ | ⟨id, rfl⟩ |
    ⟨hroster, requests, hactivities, hrequests⟩
  · exact h.acts ha hacts
  · refine h.of_activities rfl rfl fun a ha => ?_
    rw [List.mem_singleton.mp ha]
    rfl
  · exact h.closeShard id
  · exact h.of_activities hroster hactivities fun a ha =>
      Activity.isRefreshing_of_isRequest (hrequests a ha)

/-- **What is at rest stays at rest.** -/
theorem Rests.serviceCourse (h : n.Rests k) (hcourse : n.ServiceCourse m) : m.Rests k := by
  have hparts := hcourse.partCourse
  clear hcourse
  induction hparts with
  | refl => exact h
  | tail _ hpart ih => exact ih.servicePart hpart

/-- No activity of a shard at rest stores anything. -/
theorem Rests.stores_nothing (h : n.Rests k)
    (ha : n.activities[number]?.bind Activity.shard? = some k)
    (hmove : n.move? number = some m) : m.files = n.files ∧ m.memory = n.memory := by
  obtain ⟨a, b, ha', hacts⟩ := exists_acts_of_move? hmove
  rw [ha', Option.bind_some] at ha
  cases hacts with
  | reclaim => cases ha
  | hear => cases ha
  | loop _ h => exact ⟨h.files, h.memory⟩
  | loopFlush =>
      obtain rfl := Option.some.inj ha
      rw [h.flush_eq]
      exact ⟨rfl, rfl⟩
  | follow h => exact ⟨h.files, h.memory⟩
  | deafen h => exact ⟨h.files, h.memory⟩
  | opening _ h => exact ⟨h.files, h.memory⟩
  | apart _ h => exact ⟨h.files, h.memory⟩
  | turnDown h => exact ⟨h.files, h.memory⟩
  | host _ h => exact ⟨h.files, h.memory⟩
  | talk h => exact ⟨h.files, h.memory⟩
  | query h => exact ⟨h.files, h.memory⟩
  | loopRefresh => exact ⟨rfl, rfl⟩
  | write => exact ⟨rfl, rfl⟩
  | refresh => exact ⟨rfl, rfl⟩
  | report => exact ⟨rfl, rfl⟩

/-! ### The order in which shards store -/

/-- A shard later on: the same shard, closed if it was closed before, with a commit point whose
checkpoint is no smaller. -/
structure Ages (s s' : HostedShard) : Prop where
  id : s'.id = s.id
  isClosed : s.isClosed = true → s'.isClosed = true
  checkpoint_le : s.ledger.point.checkpoint ≤ s'.ledger.point.checkpoint

namespace Ages

theorem refl (s : HostedShard) : Ages s s := ⟨rfl, fun h => h, Int.le_refl _⟩

theorem trans {s s' s'' : HostedShard} (h₁ : Ages s s') (h₂ : Ages s' s'') : Ages s s'' :=
  ⟨h₂.id.trans h₁.id, fun h => h₂.isClosed (h₁.isClosed h),
    Int.le_trans h₁.checkpoint_le h₂.checkpoint_le⟩

end Ages

theorem Leaves.ages {s' : HostedShard} (h : n.Leaves k a s s') : Ages s s' where
  id := h.id
  isClosed := fun hclosed => h.isClosed.trans hclosed
  checkpoint_le := by
    rcases h.ledger with heq | ⟨-, checkpoint, clock, marker, heq⟩ | heq
    · exact Int.le_of_eq (by rw [heq])
    · rw [heq]
      exact s.ledger.checkpoint_le_refresh clock checkpoint marker
    · exact Int.le_of_eq (by rw [heq, CommitLedger.point_flush])

theorem ServicePart.ages (h : n.ServicePart m) (hs : n.roster.shards[k]? = some s) :
    ∃ s', m.roster.shards[k]? = some s' ∧ Ages s s' := by
  rcases h.cases with ⟨number, a, b, ha, hacts⟩ | ⟨plan, token, -, rfl⟩ | ⟨id, rfl⟩ | ⟨hroster, -⟩
  · obtain ⟨s', hs', heffect⟩ := hacts.effect hs
    exact ⟨s', hs', heffect.leaves.ages⟩
  · exact ⟨s, hs, .refl s⟩
  · refine ⟨_, shards_closeShard hs id, ?_⟩
    split
    · exact ⟨rfl, fun _ => rfl, Int.le_of_eq (by rw [CommitLedger.point_flush])⟩
    · exact .refl s
  · rw [hroster]
    exact ⟨s, hs, .refl s⟩

theorem ServiceCourse.ages (h : n.ServiceCourse m) (hs : n.roster.shards[k]? = some s) :
    ∃ s', m.roster.shards[k]? = some s' ∧ Ages s s' := by
  have hparts := h.partCourse
  clear h
  induction hparts with
  | refl => exact ⟨s, hs, .refl s⟩
  | tail _ hpart ih =>
      obtain ⟨t, ht, hages⟩ := ih
      obtain ⟨u, hu, hages'⟩ := hpart.ages ht
      exact ⟨u, hu, hages.trans hages'⟩

theorem ServiceCourse.isClosed (h : n.ServiceCourse m) (hclosed : n.roster.IsClosed k) :
    m.roster.IsClosed k := by
  obtain ⟨s, hs, hsclosed⟩ := hclosed
  obtain ⟨t, ht, hages⟩ := h.ages hs
  exact ⟨t, ht, hages.isClosed hsclosed⟩

theorem isClosed_iff {r : Roster} :
    r.IsClosed k ↔ (r.shards.map HostedShard.isClosed)[k]? = some true := by
  rw [List.getElem?_map, Option.map_eq_some_iff]
  rfl

/-- A step that leaves every shard that it closes at rest. -/
def CarefulStep (n m : Node) : Prop :=
  n.ServiceStep m ∧ ∀ k, m.roster.IsClosed k → n.roster.IsClosed k ∨ m.Rests k

/-- Any number of such steps. -/
abbrev CarefulCourse : Node → Node → Prop := Relation.ReflTransGen CarefulStep

theorem CarefulCourse.serviceCourse (h : n.CarefulCourse m) : n.ServiceCourse m := by
  induction h with
  | refl => exact .refl
  | tail _ hstep ih => exact ih.tail hstep.1

/-- A course in which no shard is closed. -/
theorem ServiceCourse.carefulCourse (h : n.ServiceCourse m)
    (hclosed : ∀ k, m.roster.IsClosed k → n.roster.IsClosed k) : n.CarefulCourse m := by
  induction h using Relation.ReflTransGen.head_induction_on with
  | refl => exact .refl
  | head hstep hrest ih =>
      have hcourse : ServiceCourse _ m := hrest
      refine .head ⟨hstep, fun k hk => Or.inl (hclosed k (hcourse.isClosed hk))⟩ (ih fun k hk => ?_)
      exact ServiceCourse.isClosed (.single hstep) (hclosed k hk)

/-- All closed shards are at rest throughout. -/
theorem CarefulCourse.rests (h₀ : n₀.Unused) (h : n₀.CarefulCourse n)
    (hclosed : n.roster.IsClosed k) : n.Rests k := by
  induction h with
  | refl =>
      obtain ⟨s, hs, -⟩ := hclosed
      rw [h₀.roster] at hs
      cases hs
  | tail _ hstep ih =>
      rcases hstep.2 k hclosed with hbefore | hrests
      · exact (ih hbefore).serviceCourse (.single hstep.1)
      · exact hrests

/-- A step in which the shard `s` of the number `k` stores its commit point: one of the task that
refreshes it, or its closing. -/
structure Stores (n : Node) (k : Nat) (s : HostedShard) (m : Node) : Prop where
  shard : n.roster.shards[k]? = some s
  stored : (n.flush k false).2 = .ok true
  step : (∃ number, n.activities[number]?.bind Activity.flushes? = some k ∧
      n.move? number = some m) ∨
    ∃ id, n.roster.find? id = some k ∧ m = (n.closeShard id).1

/-- Where closed shards are at rest, only open ones store. -/
theorem Stores.isOpen (h : n.Stores k s m) (hrests : n.roster.IsClosed k → n.Rests k) :
    s.isClosed = false := by
  cases hclosed : s.isClosed with
  | false => rfl
  | true =>
      have hflush := (hrests ⟨s, h.shard, hclosed⟩).flush_eq
      rw [Prod.ext_iff, h.stored] at hflush
      cases hflush.2

/-! ### What an opening has read -/

/-- A step in which the opening of the number `i` reads a commit point. -/
structure Reads (n : Node) (i : Nat) (point : CommitPoint) (m : Node) : Prop where
  arriving : ∃ plan token, n.activities[i]? = some (.opening plan token .arriving) ∧
    n.load plan.record = .ok point
  step : n.move? i = some m

/-- The activity of the number `i` is an opening that is no further back than the checkpoint `c`. -/
def Keeps (n : Node) (i : Nat) (c : Int) : Prop :=
  ∃ plan token phase, n.activities[i]? = some (.opening plan token phase) ∧
    phase.Keeps n.roster.shards c

variable {i : Nat} {c : Int} {point : CommitPoint}

theorem Reads.keeps (h : n.Reads i point m) : m.Keeps i point.checkpoint := by
  obtain ⟨plan, token, harriving, hload⟩ := h.arriving
  obtain ⟨a, b, ha, hacts⟩ := exists_acts_of_move? h.step
  obtain rfl := Option.some.inj (ha.symm.trans harriving)
  have hown := hacts.own ha
  cases hacts with
  | opening hphase =>
      refine ⟨_, _, _, hown, ?_⟩
      cases hphase with
      | reject => exact trivial
      | draft wait next hdraft =>
          rw [← OpeningPlan.point_draft hdraft hload]
          exact Int.le_refl _

/-- An opening goes on from what it has in hand, and opens just that. -/
theorem Acts.keeps {plan : OpeningPlan} {token : Token} {phase : OpeningPhase}
    (h : n.Acts number (.opening plan token phase) b m) (hphase : phase.Keeps n.roster.shards c) :
    ∃ token' phase', b = .opening plan token' phase' ∧ phase'.Keeps m.roster.shards c := by
  cases h with
  | opening hturns =>
      refine ⟨_, _, rfl, ?_⟩
      cases hturns with
      | reject | draft => exact absurd hphase id
      | again | met => exact hphase
      | giveUp => exact trivial
  | @apart _ _ draft _ _ htakes =>
      refine ⟨_, _, rfl, draft, ?_, hphase⟩
      rw [htakes.roster]
      exact List.getElem?_concat_length
  | turnDown => exact ⟨_, _, rfl, trivial⟩
  | @host _ _ draft _ _ _ _ hhost htakes =>
      refine ⟨_, _, rfl, draft, ?_, hphase⟩
      rw [htakes.roster, (Roster.register?_add_eq_some hhost).2]
      exact List.getElem?_concat_length

theorem Keeps.servicePart (h : n.Keeps i c) (hpart : n.ServicePart m) : m.Keeps i c := by
  obtain ⟨plan, token, phase, ha, hphase⟩ := h
  -- shards that were opened only go forward
  have hshards : phase.Keeps m.roster.shards c := by
    unfold OpeningPhase.Keeps at hphase ⊢
    split at hphase
    · exact hphase
    · exact hphase
    · exact hphase
    · obtain ⟨s, hs, hc⟩ := hphase
      obtain ⟨s', hs', hages⟩ := hpart.ages hs
      exact ⟨s', hs', Int.le_trans hc hages.checkpoint_le⟩
    · exact trivial
  rcases hpart.cases with ⟨number, a, b, hb, hacts⟩ | ⟨plan', token', -, rfl⟩ | ⟨id, rfl⟩ | haround
  · by_cases hi : i = number
    · subst hi
      obtain rfl := Option.some.inj (hb.symm.trans ha)
      obtain ⟨token', phase', rfl, hkeeps⟩ := hacts.keeps hphase
      exact ⟨plan, token', phase', hacts.own ha, hkeeps⟩
    · exact ⟨plan, token, phase, hacts.other hb hi ha, hshards⟩
  · exact ⟨plan, token, phase, activities_begin ha, hshards⟩
  · exact ⟨plan, token, phase, by rw [activities_closeShard]; exact ha, hshards⟩
  · exact ⟨plan, token, phase, haround.stays ha, hshards⟩

/-- **A shard never falls back behind what its opening has read.** -/
theorem Reads.checkpoint_le (h : n.Reads i point m) (hcourse : m.ServiceCourse p)
    (hopened : p.activities[i]?.bind Activity.opened? = some k)
    (hs : p.roster.shards[k]? = some s) : point.checkpoint ≤ s.ledger.point.checkpoint := by
  have hkeeps : p.Keeps i point.checkpoint := by
    have hparts := hcourse.partCourse
    clear hcourse hopened hs
    induction hparts with
    | refl => exact h.keeps
    | tail _ hpart ih => exact ih.servicePart hpart
  obtain ⟨plan, token, phase, ha, hphase⟩ := hkeeps
  rw [ha, Option.bind_some] at hopened
  unfold Activity.opened? at hopened
  split at hopened
  · rename_i heq
    obtain rfl := Option.some.inj hopened
    cases heq
    obtain ⟨t, ht, hc⟩ := hphase
    obtain rfl := Option.some.inj (hs.symm.trans ht)
    exact hc
  · cases hopened

/-- **What a closed shard does, and in which order shards store.**  Take any node at which nothing
has happened yet.

* Let a hosted shard be closed at any moment of any course of the node at which no refresh of it is
  under way, and let its last flush not fail.  From then on the shard is closed, a flush of it does
  nothing, and no activity of it changes what is stored.
* Let every shard that is closed be at rest at once.  If two shards of one name store one after the
  other, the later one was not opened before the other, and what it stores has a checkpoint no
  smaller than any that it has ever had, of which the first is the one that it was opened with.
* The checkpoint stored does not decrease from one to the other if they are one and the same shard,
  or if the opening of the later one has read what the former one stored, or something no further
  back. -/
theorem stores_nothing_once_closed (h₀ : n₀.Unused) :
    (∀ {n p : Node} {id : ShardId} {k : Nat}, n₀.ServiceCourse n → n.roster.find? id = some k →
      (∀ a ∈ n.activities, a.isRefreshing k = false) → (∀ e, (n.flush k false).2 ≠ .error e) →
      (n.closeShard id).1.ServiceCourse p →
      p.roster.IsClosed k ∧ p.flush k false = (p, .ok false) ∧
        ∀ number q, p.activities[number]?.bind Activity.shard? = some k →
          p.move? number = some q → q.files = p.files ∧ q.memory = p.memory) ∧
    ∀ {n m p q : Node} {j k : Nat} {s t : HostedShard}, n₀.CarefulCourse n → n.Stores k s m →
      n.CarefulStep m → m.CarefulCourse p → p.Stores j t q → s.id = t.id →
      k ≤ j ∧ (∀ (r : Node) u, r.ServiceCourse p → r.roster.shards[j]? = some u →
        u.ledger.point.checkpoint ≤ t.ledger.point.checkpoint) ∧
      ((k = j ∨ ∃ (r r' : Node) (i : Nat) (point : CommitPoint), r.Reads i point r' ∧
          s.ledger.point.checkpoint ≤ point.checkpoint ∧ r'.ServiceCourse p ∧
          p.activities[i]?.bind Activity.opened? = some j) →
        s.ledger.point.checkpoint ≤ t.ledger.point.checkpoint) := by
  refine ⟨?_, ?_⟩
  · intro n p id k hn hfind hidle hflush hp
    have hexact := ((HostsExactly.of_unused h₀).serviceCourse hn).roster
    obtain ⟨s, hs, -⟩ := hexact.sound.place _ (Roster.mem_of_find? hfind)
    have hrests := (rests_closeShard hs hfind hidle hflush).serviceCourse hp
    exact ⟨hrests.isClosed, hrests.flush_eq, fun number q hshard hmove =>
      hrests.stores_nothing hshard hmove⟩
  · intro n m p q j k s t hn hstores hstep hm hstores' hid
    have hp : n.ServiceCourse p := .head hstep.1 hm.serviceCourse
    have hgrows : ∀ (r : Node) u, r.ServiceCourse p → r.roster.shards[j]? = some u →
        u.ledger.point.checkpoint ≤ t.ledger.point.checkpoint := by
      intro r u hr hu
      obtain ⟨t', ht', hages⟩ := hr.ages hu
      obtain rfl : t = t' := Option.some.inj (hstores'.shard.symm.trans ht')
      exact hages.checkpoint_le
    refine ⟨?_, hgrows, ?_⟩
    · by_contra hlt
      -- the later shard was there before, and so it was open together with the other one
      obtain ⟨u, hu⟩ : ∃ u, n.roster.shards[j]? = some u := by
        have hk := (List.getElem?_eq_some_iff.mp hstores.shard).1
        exact ⟨_, List.getElem?_eq_getElem (by omega)⟩
      obtain ⟨t', ht', hages⟩ := hp.ages hu
      obtain rfl : t = t' := Option.some.inj (hstores'.shard.symm.trans ht')
      have hcareful : n₀.CarefulCourse p := (hn.tail hstep).trans hm
      have htopen := hstores'.isOpen (hcareful.rests h₀)
      have huopen : u.isClosed = false := by
        by_contra hclosed
        rw [hages.isClosed (by simpa using hclosed)] at htopen
        cases htopen
      have hexact := ((HostsExactly.of_unused h₀).serviceCourse hn.serviceCourse).roster
      have heq := hexact.eq_of_open hstores.shard hu (hstores.isOpen (hn.rests h₀)) huopen
        (hid.trans hages.id)
      omega
    · rintro (rfl | ⟨r, r', i, point, hreads, hpoint, hr, hopened⟩)
      · exact hgrows n s hp hstores.shard
      · exact Int.le_trans hpoint (hreads.checkpoint_le hr hopened hstores'.shard)

/-! ### A shard that is opened again -/

end Node

namespace Node.Reopening

/-- The name of the shard. -/
def name : ShardId := ⟨"t", 0⟩

/-- Where its commit point is stored. -/
def record : RecordPlace := .file ⟨"c"⟩

/-- Where the engine leaves its version markers. -/
def partition : Path := ⟨"r/t/generation_0/partition_0_65535"⟩

/-- A node that nobody has used yet. -/
def unused : Node :=
  starting ⟨⟨"r"⟩⟩ (FileTree.empty.createDirectories partition).1 ⟨.ofSeconds 1, .ofSeconds 60⟩
    ⟨.ofMillis 50, 2, 10, .ofSeconds 5⟩ ⟨3, .ofSeconds 1⟩

/-- At the second `now` the catalog has the shard, the node is told a checkpoint, and the engine has
left a marker of its newest version. -/
def served (n : Node) (now : Nat) (checkpoint : Int) (version text : String) : Node :=
  { n with
    wall := 1000 * now
    feed := n.feed.publish ⟨[("t", [(0, ⟨["0_65535"]⟩)])]⟩
    checkpoint := checkpoint
    files := (n.files.write (partition.join ("version." ++ version)) (Utf8.ofString text)).1 }

/-- An opening of the shard has begun. -/
def opening (n : Node) : Node :=
  (n.begin (.opening ⟨name, 1, .empty 8 60000, record, .told, .ofSeconds 1, some (.ofSeconds 1)⟩
    TaskGroup.root .arriving)).1

/-- The shard is about to be opened for the first time. -/
def start : Node := opening (served unused 1 5 "1" "\x7b\"timestamp\":2000000\x7d")

/-- The first refresh of the shard is about to store what it has found. -/
def first : Node := (start.moves? [0, 0, 0, 1, 1, 1, 1, 1, 1, 1, 1]).getD unused

/-- It has stored that. -/
def stored : Node := (first.move? 1).getD unused

/-- The shard has been closed, and is about to be opened for the second time. -/
def again : Node :=
  opening (served (stored.closeShard name).1 2 9 "2" "\x7b\"timestamp\":3000000\x7d")

/-- The first refresh of the second shard is about to store what it has found. -/
def second : Node := (again.moves? [2, 2, 2, 3, 3, 3, 3, 3, 3, 3, 3]).getD unused

/-- The first refresh of the shard is about to enter what it has read. -/
def entering : Node := (start.moves? [0, 0, 0, 1, 1, 1, 1, 1, 1, 1]).getD unused

/-- The shard has been closed at that, and is about to be opened for the second time. -/
def overtaken : Node := opening { (entering.closeShard name).1 with checkpoint := 9 }

/-- The second shard has stored what its first refresh has found, and that of the first shard has
come to storing. -/
def late : Node :=
  (overtaken.moves? [2, 2, 2, 3, 3, 3, 3, 3, 3, 3, 3, 3, 1]).getD unused

theorem serviceCourse_opening (n : Node) (now : Nat) (checkpoint : Int) (version text : String) :
    n.ServiceCourse (opening (served n now checkpoint version text)) :=
  (Relation.ReflTransGen.single (.part (.around (around_of_eq rfl rfl)))).tail
    (.part (.openShard _ TaskGroup.root rfl))

/-- The opening that begins is the one that reads the record next. -/
theorem reads_opening (n : Node) (now : Nat) (checkpoint : Int) (version text : String)
    {point : CommitPoint} {m : Node}
    (hread : (opening (served n now checkpoint version text)).load record = .ok point)
    (hmove : (opening (served n now checkpoint version text)).move? n.activities.length = some m) :
    (opening (served n now checkpoint version text)).Reads n.activities.length point m :=
  ⟨⟨_, _, List.getElem?_concat_length, hread⟩, hmove⟩

end Node.Reopening

namespace Node

open Reopening

/-- A shard stores, is closed at rest, and is opened again with what it has stored.  The second one
stores a greater checkpoint, and the first one does nothing any more. -/
theorem stores_nothing_once_closed_after_reopening :
    unused.Unused ∧ unused.CarefulCourse first ∧ first.CarefulStep stored ∧
      (stored.closeShard name).1.ServiceCourse second ∧ stored.CarefulCourse second ∧
      second.roster.IsClosed 0 ∧ second.flush 0 false = (second, .ok false) ∧
      (∃ r, again.Reads 2 ⟨2000, 1, 5⟩ r ∧ r.ServiceCourse second) ∧
      second.activities[2]?.bind Activity.opened? = some 1 ∧
      ∃ s t q, first.Stores 0 s stored ∧ second.Stores 1 t q ∧ s.id = t.id ∧
        s.ledger.point.checkpoint = 5 ∧ t.ledger.point.checkpoint = 9 ∧
        s.ledger.point.checkpoint ≤ t.ledger.point.checkpoint ∧
        ∀ (r : Node) u, r.ServiceCourse second → r.roster.shards[1]? = some u →
          u.ledger.point.checkpoint ≤ 9 := by
  have h₀ : unused.Unused := unused_starting ..
  -- all that the run comes to, in one evaluation
  obtain ⟨hfirst, hfirst', hsecond, hsecond', hflushes, hflushes', hfind, hidle, hstores, hkept,
      hstores', hs, ht, hopen, hopen', hclosed, hplaces, hread, hopened⟩ :
      (start.moves? [0, 0, 0, 1, 1, 1, 1, 1, 1, 1, 1]).isSome = true ∧
      (first.move? 1).isSome = true ∧
      (again.moves? [2, 2, 2, 3, 3, 3, 3, 3, 3, 3, 3]).isSome = true ∧
      (second.move? 3).isSome = true ∧
      first.activities[1]?.bind Activity.flushes? = some 0 ∧
      second.activities[3]?.bind Activity.flushes? = some 1 ∧
      stored.roster.find? name = some 0 ∧
      (∀ a ∈ stored.activities, a.isRefreshing 0 = false) ∧
      (first.flush 0 false).2.toOption = some true ∧
      (stored.flush 0 false).2.toOption = some false ∧
      (second.flush 1 false).2.toOption = some true ∧
      first.roster.shards[0]?.map (fun s => (s.id, s.ledger.point.checkpoint)) =
        some (name, 5) ∧
      second.roster.shards[1]?.map (fun s => (s.id, s.ledger.point.checkpoint)) =
        some (name, 9) ∧
      first.roster.shards.map HostedShard.isClosed = [false] ∧
      stored.roster.shards.map HostedShard.isClosed = [false] ∧
      second.roster.shards.map HostedShard.isClosed = [true, false] ∧
      (stored.closeShard name).1.activities.length = 2 ∧
      (again.load record).toOption = some ⟨2000, 1, 5⟩ ∧
      second.activities[2]?.bind Activity.opened? = some 1 := by
    decide +kernel
  obtain ⟨s, hs, hsid⟩ := Option.map_eq_some_iff.mp hs
  obtain ⟨t, ht, htid⟩ := Option.map_eq_some_iff.mp ht
  obtain ⟨hsid, hs5⟩ := Prod.mk.inj hsid
  obtain ⟨htid, ht9⟩ := Prod.mk.inj htid
  have hmove : first.move? 1 = some stored := eq_some_getD hfirst' unused
  have hmove' : second.move? 3 = some _ := eq_some_getD hsecond' unused
  have hcourse : unused.ServiceCourse first :=
    (serviceCourse_opening unused ..).trans
      (serviceCourse_of_moves? (eq_some_getD hfirst unused))
  have hcourse' : (stored.closeShard name).1.ServiceCourse second :=
    (serviceCourse_opening _ ..).trans
      (serviceCourse_of_moves? (eq_some_getD hsecond unused))
  have hnone : ∀ k, ¬ first.roster.IsClosed k ∧ ¬ stored.roster.IsClosed k := fun k => by
    rw [isClosed_iff, isClosed_iff, hopen, hopen']
    cases k <;> simp
  have hcareful : unused.CarefulCourse first :=
    hcourse.carefulCourse fun k hk => absurd hk (hnone k).1
  have hstep : first.CarefulStep stored :=
    ⟨.part (.act hmove), fun k hk => absurd hk (hnone k).2⟩
  -- the closing brings the first shard to rest, and closes no other
  have hkept : ∀ e, (stored.flush 0 false).2 ≠ .error e := by
    intro e he
    rw [he] at hkept
    cases hkept
  obtain ⟨s', hs', -⟩ := ServiceCourse.ages (.single hstep.1) hs
  have hrests : (stored.closeShard name).1.Rests 0 :=
    rests_closeShard hs' hfind hidle hkept
  have hzero : ∀ k, second.roster.IsClosed k → k = 0 := by
    intro k hk
    rw [isClosed_iff, hclosed] at hk
    rcases k with _ | _ | k
    · rfl
    · cases hk
    · cases hk
  have hclosing : stored.CarefulStep (stored.closeShard name).1 := by
    refine ⟨.part (.closeShard ..), fun k hk => Or.inr ?_⟩
    rw [hzero k (hcourse'.isClosed hk)]
    exact hrests
  have hcareful' : stored.CarefulCourse second := by
    refine .head hclosing (hcourse'.carefulCourse fun k hk => ?_)
    rw [hzero k hk]
    exact hrests.isClosed
  have hstoring : first.Stores 0 s stored :=
    ⟨hs, eq_ok_of_toOption hstores, Or.inl ⟨1, hflushes, hmove⟩⟩
  have hstoring' : second.Stores 1 t _ :=
    ⟨ht, eq_ok_of_toOption hstores', Or.inl ⟨3, hflushes', hmove'⟩⟩
  -- the second opening reads what the first shard has stored
  obtain ⟨r, hmoved, hrest⟩ := exists_of_moves? (eq_some_getD hsecond unused)
  rw [← hplaces] at hmoved
  have hreads := reads_opening _ _ _ _ _ (eq_ok_of_toOption hread) hmoved
  rw [hplaces] at hreads
  have hreads : again.Reads 2 ⟨2000, 1, 5⟩ r ∧ r.ServiceCourse second :=
    ⟨hreads, serviceCourse_of_moves? hrest⟩
  have hstored : unused.ServiceCourse stored := hcourse.tail hstep.1
  have hid : s.id = t.id := hsid.trans htid.symm
  obtain ⟨hrest, horder⟩ := stores_nothing_once_closed h₀
  obtain ⟨hisClosed, hflush, -⟩ := hrest hstored hfind hidle hkept hcourse'
  obtain ⟨-, hle, hstored_le⟩ := horder hcareful hstoring hstep hcareful' hstoring' hid
  have hgrows := hstored_le
    (.inr ⟨again, r, 2, ⟨2000, 1, 5⟩, hreads.1, Int.le_of_eq hs5, hreads.2, hopened⟩)
  rw [ht9] at hle
  exact ⟨h₀, hcareful, hstep, hcourse', hcareful', hisClosed, hflush, ⟨r, hreads⟩, hopened, s, t, _,
    hstoring, hstoring', hid, hs5, ht9, hgrows, hle⟩

/-- A shard is closed while a refresh of it is under way.  The closing itself has nothing to store.
The shard is opened again, and the second one stores the checkpoint 9.  Then the refresh of the
closed one replaces that by the checkpoint 5. -/
theorem record_replaced_by_closed_shard :
    ∃ q, unused.Unused ∧ unused.ServiceCourse entering ∧
      entering.roster.find? name = some 0 ∧ (entering.flush 0 false).2 = .ok false ∧
      (entering.closeShard name).1.ServiceCourse late ∧ late.roster.IsClosed 0 ∧
      late.activities[1]?.bind Activity.shard? = some 0 ∧ late.move? 1 = some q ∧
      late.load record = .ok ⟨2000, 1, 9⟩ ∧ q.load record = .ok ⟨2000, 1, 5⟩ := by
  obtain ⟨hentering, hlate, hmove, hfind, hflush, hclosed, hshard, hbefore, hafter⟩ :
      (start.moves? [0, 0, 0, 1, 1, 1, 1, 1, 1, 1]).isSome = true ∧
      (overtaken.moves? [2, 2, 2, 3, 3, 3, 3, 3, 3, 3, 3, 3, 1]).isSome = true ∧
      (late.move? 1).isSome = true ∧
      entering.roster.find? name = some 0 ∧
      (entering.flush 0 false).2.toOption = some false ∧
      late.roster.shards.map HostedShard.isClosed = [true, false] ∧
      late.activities[1]?.bind Activity.shard? = some 0 ∧
      (late.load record).toOption = some ⟨2000, 1, 9⟩ ∧
      (((late.move? 1).getD unused).load record).toOption = some ⟨2000, 1, 5⟩ := by
    decide +kernel
  have hcourse : unused.ServiceCourse entering :=
    (serviceCourse_opening unused ..).trans
      (serviceCourse_of_moves? (eq_some_getD hentering unused))
  have hovertaken : (entering.closeShard name).1.ServiceCourse overtaken :=
    (Relation.ReflTransGen.single (.part (.around (around_of_eq rfl rfl)))).tail
      (.part (.openShard _ TaskGroup.root rfl))
  have hcourse' : overtaken.ServiceCourse late :=
    serviceCourse_of_moves? (eq_some_getD hlate unused)
  refine ⟨_, unused_starting .., hcourse, hfind, eq_ok_of_toOption hflush,
    hovertaken.trans hcourse', ?_, hshard, eq_some_getD hmove unused, eq_ok_of_toOption hbefore,
    eq_ok_of_toOption hafter⟩
  rw [isClosed_iff, hclosed]
  rfl

end Node

end ShardKeeper
