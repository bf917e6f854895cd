import ShardKeeper.Node.Operation
import ShardKeeper.Proofs.Numbered

/-!
# Aside from the reclaims

Most of what happens to a node has nothing to do with its reclaims: the catalog
is published or cleared, tokens are cancelled, time passes, files change, and
shards are opened, refreshed, written to and closed.  `Node.Aside` is all that
the reclaims notice of it, which is that the clock does not go back and that
cancelled tokens stay cancelled.

## Main definitions

* `Node.Aside` — a change of a node that leaves its reclaims alone.

## Main results

* `Node.aside_of_move?` — every activity but a reclaim acts aside from the reclaims.
* `Node.aside_publish`, `aside_clear`, `aside_cancel`, `aside_waitUntil`, `aside_closeShard` — so do
  the things that happen to a node from outside.
-/

namespace ShardKeeper

/-- A flush leaves its store as it is or saves to it once. -/
theorem CommitLedger.store_flush {σ ε : Type} (l : CommitLedger) (force : Bool) (store : σ)
    (save : σ → CommitPoint → σ × Except ε Unit) :
    (l.flush force store save).2.1 = store ∨
      ∃ point, (l.flush force store save).2.1 = (save store point).1 := by
  unfold flush persist
  split
  · exact Or.inl rfl
  · split
    · exact Or.inl rfl
    · rename_i point _
      refine Or.inr ⟨point, ?_⟩
      split <;> simp [*]

/-- Whether an activity is a reclaim. -/
def Activity.isReclaiming : Activity → Bool
  | .reclaiming _ _ => true
  | _ => false

namespace Node

/-- A change of a node that leaves its reclaims alone. -/
structure Aside (n m : Node) : Prop where
  clock : n.clock ≤ m.clock
  desk : m.desk = n.desk
  begun : m.removals.begun = n.removals.begun
  cancelled : ∀ t, n.group.isCancelled t = true → m.group.isCancelled t = true
  reclaiming : ∀ (number : Nat) (a : Activity), a.isReclaiming = true →
    (m.activities[number]? = some a ↔ n.activities[number]? = some a)

namespace Aside

variable {n m k : Node}

theorem refl (n : Node) : n.Aside n :=
  ⟨Nat.le_refl _, rfl, rfl, fun _ h => h, fun _ _ _ => Iff.rfl⟩

theorem trans (h₁ : n.Aside m) (h₂ : m.Aside k) : n.Aside k where
  clock := Nat.le_trans h₁.clock h₂.clock
  desk := h₂.desk.trans h₁.desk
  begun := h₂.begun.trans h₁.begun
  cancelled := fun t ht => h₂.cancelled t (h₁.cancelled t ht)
  reclaiming := fun number a ha => (h₂.reclaiming number a ha).trans (h₁.reclaiming number a ha)

/-- A change of whatever the reclaims have nothing to do with. -/
theorem of_eq (hclock : m.clock = n.clock) (hdesk : m.desk = n.desk)
    (hremovals : m.removals = n.removals)
    (hcancellation : m.group.cancellation = n.group.cancellation)
    (hactivities : m.activities = n.activities) : n.Aside m where
  clock := Nat.le_of_eq hclock.symm
  desk := hdesk
  begun := by rw [hremovals]
  cancelled := fun t ht => by rwa [TaskGroup.isCancelled, hcancellation]
  reclaiming := fun number a _ => by rw [hactivities]

end Aside

variable {n m : Node} {number : Nat}

/-! ### The small changes -/

theorem aside_begin (n : Node) {a : Activity} (ha : a.isReclaiming = false) :
    n.Aside (n.begin a).1 where
  clock := Nat.le_refl _
  desk := rfl
  begun := rfl
  cancelled := fun _ h => h
  reclaiming := by
    intro i b hb
    show (n.activities ++ [a])[i]? = some b ↔ _
    rw [getElem?_concat_eq_some_iff]
    refine ⟨fun h => h.resolve_left ?_, Or.inr⟩
    rintro ⟨-, rfl⟩
    rw [ha] at hb
    cases hb

/-- An activity that is no reclaim does not become one. -/
theorem aside_set (n : Node) (hnumber : ∀ b ∈ n.activities[number]?, b.isReclaiming = false)
    {a : Activity} (ha : a.isReclaiming = false) : n.Aside (n.set number a) where
  clock := Nat.le_refl _
  desk := rfl
  begun := rfl
  cancelled := fun _ h => h
  reclaiming := by
    intro i b hb
    show (n.activities.set number a)[i]? = some b ↔ _
    cases hold : n.activities[number]? with
    | none =>
        -- there is no such activity, and nothing is set
        rw [List.set_eq_of_length_le (List.getElem?_eq_none_iff.mp hold)]
    | some c =>
        have hc := hnumber c hold
        rw [getElem?_set_eq_some_iff hold]
        constructor
        · rintro (⟨-, rfl⟩ | ⟨-, h⟩)
          · rw [ha] at hb
            cases hb
          · exact h
        · refine fun h => Or.inr ⟨?_, h⟩
          rintro rfl
          rw [hold] at h
          cases h
          rw [hc] at hb
          cases hb

theorem Aside.set (h : n.Aside m) (hnumber : ∀ b ∈ n.activities[number]?, b.isReclaiming = false)
    {a : Activity} (ha : a.isReclaiming = false) : n.Aside (m.set number a) := by
  refine h.trans (aside_set m (fun b hb => ?_) ha)
  cases hreclaiming : b.isReclaiming with
  | false => rfl
  | true =>
      rw [hnumber b ((h.reclaiming number b hreclaiming).mp hb)] at hreclaiming
      cases hreclaiming

theorem aside_finish (n : Node) (ticket : TaskTicket) : n.Aside (n.finish ticket) :=
  .of_eq rfl rfl rfl rfl rfl

theorem aside_setShard (n : Node) (shard : Nat) (s : HostedShard) : n.Aside (n.setShard shard s) :=
  .of_eq rfl rfl rfl rfl rfl

theorem aside_searcher (n : Node) (searcher : RehearsedSearcher) : n.Aside { n with searcher } :=
  .of_eq rfl rfl rfl rfl rfl

theorem aside_save (place : RecordPlace) (n : Node) (point : CommitPoint) :
    n.Aside (save place n point).1 := by
  cases place with
  | file path =>
      rw [save]
      generalize RecordFile.store n.files path point = stored
      exact .of_eq rfl rfl rfl rfl rfl
  | memory =>
      rw [save]
      split
      · exact .of_eq rfl rfl rfl rfl rfl
      · exact .of_eq rfl rfl rfl rfl rfl

theorem aside_flush (n : Node) (shard : Nat) (force : Bool) : n.Aside (n.flush shard force).1 := by
  unfold flush
  split
  · exact .refl n
  · rename_i s _
    refine Aside.trans ?_ (aside_setShard ..)
    show n.Aside (s.ledger.flush force n (save s.record)).2.1
    rcases s.ledger.store_flush force n (save s.record) with heq | ⟨point, heq⟩
    · rw [heq]
      exact .refl n
    · rw [heq]
      exact aside_save ..

/-! ### The activities -/

section Activities

variable (hnumber : ∀ b ∈ n.activities[number]?, b.isReclaiming = false)
include hnumber

theorem aside_moveFollowing? {path : Path} {interval : Duration} {ticket : TaskTicket}
    {phase : FileSync} (h : n.moveFollowing? number path interval ticket phase = some m) :
    n.Aside m := by
  obtain ⟨⟨feed, phase'⟩, -, heq⟩ := Option.bind_eq_some_iff.mp h
  have hfeed : n.Aside { n with feed } := .of_eq rfl rfl rfl rfl rfl
  obtain rfl := Option.some.inj heq
  split
  · exact (hfeed.set hnumber rfl).trans (aside_finish ..)
  · exact hfeed.set hnumber rfl

theorem aside_moveTending? {shard : Nat} {interval : Duration} {ticket : TaskTicket}
    {phase : LoopPhase} (h : n.moveTending? number shard interval ticket phase = some m) :
    n.Aside m := by
  obtain ⟨s, -, hrest⟩ := Option.bind_eq_some_iff.mp h
  cases phase with
  | fresh =>
      obtain rfl := Option.some.inj hrest
      exact aside_set n hnumber rfl
  | waiting ticker =>
      obtain ⟨phase', -, heq⟩ := Option.bind_eq_some_iff.mp hrest
      split at heq
      · obtain rfl := Option.some.inj heq
        exact (aside_set n hnumber rfl).trans (aside_finish ..)
      · obtain rfl := Option.some.inj heq
        exact aside_set n hnumber rfl
  | refreshing ticker refresh =>
      obtain ⟨⟨s', refresh'⟩, -, heq⟩ := Option.bind_eq_some_iff.mp hrest
      obtain rfl := Option.some.inj heq
      exact (aside_setShard n shard s').set hnumber rfl
  | flushing ticker =>
      obtain rfl := Option.some.inj hrest
      exact (aside_flush n shard false).set hnumber rfl
  | ended => cases hrest

theorem aside_moveListening? {channel : Nat} {ticket : TaskTicket} {hasEnded : Bool}
    (h : n.moveListening? number channel ticket hasEnded = some m) : n.Aside m := by
  have hended : n.Aside ((n.set number (.listening channel ticket true)).finish ticket) :=
    (aside_set n hnumber rfl).trans (aside_finish ..)
  obtain ⟨c, -, hrest⟩ := Option.bind_eq_some_iff.mp h
  dsimp only at hrest
  split at hrest
  · cases hrest
  · split at hrest
    · obtain rfl := Option.some.inj hrest
      exact hended
    · obtain ⟨⟨receipt, c'⟩, -, heq⟩ := Option.bind_eq_some_iff.mp hrest
      dsimp only at heq
      split at heq
      · obtain rfl := Option.some.inj heq
        exact hended
      · obtain rfl := Option.some.inj heq
        exact .of_eq rfl rfl rfl rfl rfl

theorem aside_beginOpening (plan : OpeningPlan) (token : Token) :
    n.Aside (n.beginOpening number plan token) := by
  have hset : ∀ (m : Node) (token : Token) (phase : OpeningPhase), n.Aside m →
      n.Aside (m.set number (.opening plan token phase)) := fun m token phase h => h.set hnumber rfl
  have hgroup : ∀ group : TaskGroup, group.cancellation = n.group.cancellation →
      n.Aside { n with group } := fun group h => .of_eq rfl rfl rfl h rfl
  rw [beginOpening]
  split
  · exact hset n token _ (.refl n)
  · cases plan.refreshing.isSome with
    | true =>
        simp only [if_true]
        split
        · exact hset _ _ _ (hgroup _ rfl)
        · exact hset _ _ _ ((hgroup _ rfl).trans (.of_eq rfl rfl rfl rfl rfl))
    | false =>
        simp only [Bool.false_eq_true, if_false]
        split
        · exact hset _ _ _ (.refl n)
        · exact hset _ _ _ (.of_eq rfl rfl rfl rfl rfl)

theorem aside_takeUp (plan : OpeningPlan) (token : Token) (draft : HostedShard) :
    n.Aside (n.takeUp number plan token draft) := by
  have hset : ∀ (m : Node) (phase : OpeningPhase), n.Aside m →
      n.Aside (m.set number (.opening plan token phase)) := fun m phase h => h.set hnumber rfl
  have hroster : ∀ roster : Roster, n.Aside { n with roster } :=
    fun roster => .of_eq rfl rfl rfl rfl rfl
  rw [takeUp]
  dsimp only
  split
  · exact hset _ _ (hroster _)
  · split
    · exact hset _ _ (hroster _)
    · refine hset _ _ (Aside.trans ?_ (aside_begin _ rfl))
      exact .of_eq rfl rfl rfl rfl rfl

theorem aside_moveOpening? {plan : OpeningPlan} {token : Token} {phase : OpeningPhase}
    (h : n.moveOpening? number plan token phase = some m) : n.Aside m := by
  cases phase with
  | arriving =>
      obtain rfl := Option.some.inj h
      exact aside_beginOpening hnumber plan token
  | looking draft wait next =>
      obtain ⟨-, heq⟩ := Option.ite_none_right_eq_some.mp h
      obtain rfl := Option.some.inj heq
      exact aside_set n hnumber rfl
  | registering draft =>
      obtain rfl := Option.some.inj h
      exact aside_takeUp hnumber plan token draft
  | done result => cases h

theorem aside_moveWriting? {shard : Nat} {operation : DocumentChange.Operation}
    {request : WriteRequest} {call : Call WriteResponse} {result : Option (Except ShardError Unit)}
    (h : n.moveWriting? number shard operation request call result = some m) : n.Aside m := by
  obtain ⟨s, -, hrest⟩ := Option.bind_eq_some_iff.mp h
  dsimp only at hrest
  split at hrest
  · obtain rfl := Option.some.inj hrest
    exact (aside_searcher n _).set hnumber rfl
  · obtain rfl := Option.some.inj hrest
    exact (aside_setShard ..).set hnumber rfl
  · obtain ⟨call', -, heq⟩ := Option.bind_eq_some_iff.mp hrest
    obtain rfl := Option.some.inj heq
    exact aside_set n hnumber rfl

theorem aside_moveQuerying? {shard : Nat} {request : QueryRequest} {call : Call QueryResponse}
    (h : n.moveQuerying? number shard request call = some m) : n.Aside m := by
  obtain ⟨s, -, hrest⟩ := Option.bind_eq_some_iff.mp h
  split at hrest
  · obtain rfl := Option.some.inj hrest
    exact (aside_searcher n _).set hnumber rfl
  · obtain ⟨call', -, heq⟩ := Option.bind_eq_some_iff.mp hrest
    obtain rfl := Option.some.inj heq
    exact aside_set n hnumber rfl

theorem aside_moveRefreshing? {shard : Nat} {phase : RefreshPhase}
    (h : n.moveRefreshing? number shard phase = some m) : n.Aside m := by
  obtain ⟨s, -, hrest⟩ := Option.bind_eq_some_iff.mp h
  obtain ⟨⟨s', phase'⟩, -, heq⟩ := Option.bind_eq_some_iff.mp hrest
  obtain rfl := Option.some.inj heq
  exact (aside_setShard ..).set hnumber rfl

theorem aside_moveReporting? {shard : Nat} {phase : ReportPhase}
    (h : n.moveReporting? number shard phase = some m) : n.Aside m := by
  obtain ⟨s, -, hrest⟩ := Option.bind_eq_some_iff.mp h
  obtain ⟨⟨s', phase'⟩, -, heq⟩ := Option.bind_eq_some_iff.mp hrest
  obtain rfl := Option.some.inj heq
  exact (aside_setShard ..).set hnumber rfl

end Activities

/-- **Every activity but a reclaim acts aside from the reclaims.** -/
theorem aside_of_move? {a : Activity} (ha : n.activities[number]? = some a)
    (hreclaiming : a.isReclaiming = false) (h : n.move? number = some m) : n.Aside m := by
  have hnumber : ∀ b ∈ n.activities[number]?, b.isReclaiming = false := by
    intro b hb
    rw [ha] at hb
    obtain rfl := Option.some.inj hb
    exact hreclaiming
  obtain ⟨b, hb, hmove⟩ := Option.bind_eq_some_iff.mp h
  obtain rfl : a = b := Option.some.inj (ha.symm.trans hb)
  cases a with
  | following => exact aside_moveFollowing? hnumber hmove
  | reclaiming => cases hreclaiming
  | tending => exact aside_moveTending? hnumber hmove
  | listening => exact aside_moveListening? hnumber hmove
  | opening => exact aside_moveOpening? hnumber hmove
  | writing => exact aside_moveWriting? hnumber hmove
  | querying => exact aside_moveQuerying? hnumber hmove
  | refreshing => exact aside_moveRefreshing? hnumber hmove
  | reporting => exact aside_moveReporting? hnumber hmove

/-! ### From outside -/

theorem aside_publish (n : Node) (c : Catalog) : n.Aside { n with feed := n.feed.publish c } :=
  .of_eq rfl rfl rfl rfl rfl

theorem aside_clear (n : Node) : n.Aside { n with feed := n.feed.clear } :=
  .of_eq rfl rfl rfl rfl rfl

theorem aside_waitUntil (n : Node) {t : Instant} (ht : n.clock ≤ t) :
    n.Aside { n with clock := t } :=
  ⟨ht, rfl, rfl, fun _ h => h, fun _ _ _ => Iff.rfl⟩

/-- Cancelling a token takes back no other cancellation. -/
theorem aside_cancel (n : Node) (t : Token) : n.Aside { n with group := n.group.cancel t } where
  clock := Nat.le_refl _
  desk := rfl
  begun := rfl
  cancelled := by
    intro u hu
    show (n.group.cancellation.cancel t).reaches u = true
    rw [Cancellation.reaches_cancel, Bool.or_eq_true]
    exact Or.inr hu
  reclaiming := fun _ _ _ => Iff.rfl

theorem aside_closeShard (n : Node) (id : ShardId) : n.Aside (n.closeShard id).1 := by
  rw [closeShard]
  split
  · exact .refl n
  · rename_i roster shard _
    have hroster : n.Aside { n with roster } := .of_eq rfl rfl rfl rfl rfl
    exact hroster.trans (aside_flush ..)

theorem aside_closeShards (n : Node) (ids : List ShardId) : n.Aside (n.closeShards ids) := by
  induction ids generalizing n with
  | nil => exact .refl n
  | cons id ids ih => exact (aside_closeShard n id).trans (ih _)

end Node

end ShardKeeper
