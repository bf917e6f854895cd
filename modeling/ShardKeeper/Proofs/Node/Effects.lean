import ShardKeeper.Proofs.Durability.Lives
import ShardKeeper.Proofs.Node.Hosting

/-!
# What becomes of a shard

In a step of an activity a single shard is refreshed, flushed, written to or
reported on, or it hears that the engine is lost, or it is left alone.  Some of
that is an event of the shard: a write that returned, a failure, its closing.

## Main definitions

* `ShardEvent` — what happened to a shard, as far as it decides how the shard answers.
* `Node.tells` — the events in the next step of an activity.
* `Node.Effect` — what a step makes of a shard.

## Main results

* `Node.Acts.effect` — what every step makes of every shard.
* `Node.shards_flush`, `Node.shards_closeShard` — what a flush and a closing make of it.
-/

namespace ShardKeeper

/-- What happened to a shard. -/
inductive ShardEvent where
  /-- A write returned, and its call had ended so. -/
  | returned (operation : DocumentChange.Operation) (result : CallResult WriteResponse)
  | failed (reason : String)
  | closed
deriving DecidableEq

/-- The refresh of the shard `k` that an activity is carrying out. -/
def Activity.refresh? (k : Nat) : Activity → Option RefreshPhase
  | .tending shard _ _ (.refreshing _ phase) => if shard = k then some phase else none
  | .refreshing shard phase => if shard = k then some phase else none
  | _ => none

/-- An activity that carries out a refresh, after a step of that. -/
def Activity.refreshed (phase : RefreshPhase) : Activity → Activity
  | .tending shard interval ticket (.refreshing ticker _) =>
    .tending shard interval ticket (.afterRefresh ticker phase)
  | .refreshing shard _ => .refreshing shard phase
  | a => a

namespace CommitLedger

variable {σ ε : Type} {l : CommitLedger}

/-- What a flush comes to depends on what saving comes to, and on nothing else of the store. -/
theorem flush_congr (store store' : σ) (save : σ → CommitPoint → σ × Except ε Unit)
    (h : (save store' l.point).2 = (save store l.point).2) (force : Bool) :
    (l.flush force store' save).1 = (l.flush force store save).1 ∧
      (l.flush force store' save).2.2 = (l.flush force store save).2.2 := by
  have hpersist : (l.persist store' save).1 = (l.persist store save).1 ∧
      (l.persist store' save).2.2 = (l.persist store save).2.2 := by
    rcases l.persist_cases store' save with ⟨hunknown, heq⟩ | ⟨hknown, hsaved, heq⟩ |
        ⟨hknown, e, hsaved, heq⟩ <;>
      rcases l.persist_cases store save with ⟨hunknown', heq'⟩ | ⟨hknown', hsaved', heq'⟩ |
        ⟨hknown', e', hsaved', heq'⟩
    all_goals first | omega | simp_all
  unfold flush
  split
  · exact ⟨rfl, rfl⟩
  · exact hpersist

end CommitLedger

namespace Node

/-- The events of the shard `k` in the next step of an activity. -/
def tells (n : Node) (k : Nat) : Activity → List ShardEvent
  | .writing shard operation _ ⟨_, .ended result⟩ none =>
    if shard = k then [.returned operation result] else []
  | .listening channel ticket hasEnded =>
    match n.receipt? channel ticket hasEnded with
    | some (.item (.restartFailed role error)) =>
      if k ∈ n.roster.hosted.map (·.2) then [.failed (Roster.lossText role error)] else []
    | _ => []
  | _ => []

/-- What a step of an activity, which is another one after it, makes of the shard `k`. -/
inductive Effect (n : Node) (k : Nat) : Activity → Activity → HostedShard → HostedShard → Prop where
  | none {a b : Activity} {s : HostedShard} (h : n.tells k a = []) : Effect n k a b s s
  | hear {channel : Nat} {ticket : TaskTicket} {hasEnded : Bool} {role error : String}
      {b : Activity}
      {s : HostedShard}
      (h : n.tells k (.listening channel ticket hasEnded) =
        [.failed (Roster.lossText role error)]) :
      Effect n k (.listening channel ticket hasEnded) b s (s.fail (Roster.lossText role error))
  | refresh {a : Activity} {phase phase' : RefreshPhase} {s s' : HostedShard}
      (ha : a.refresh? k = some phase) (h : phase.next? s (n.reading s) = some (s', phase')) :
      Effect n k a (a.refreshed phase') s s'
  | flush {interval : Duration} {ticket : TaskTicket} {ticker : Ticker} {s : HostedShard} :
      Effect n k (.tending k interval ticket (.flushing ticker))
        (.tending k interval ticket (.waiting ticker)) s
        { s with ledger := (s.ledger.flush false n (save s.record)).1 }
  | write {operation : DocumentChange.Operation} {request : WriteRequest} {retry : Retry}
      {result : CallResult WriteResponse} {s : HostedShard} :
      Effect n k (.writing k operation request ⟨retry, .ended result⟩ none)
        (.writing k operation request ⟨retry, .ended result⟩
          (some (s.afterWrite operation result).2)) s (s.afterWrite operation result).1
  | report {phase phase' : ReportPhase} {s : HostedShard} (reported : Option (Statistics × Int)) :
      Effect n k (.reporting k phase) (.reporting k phase') s { s with reported }

variable {n m : Node} {number k : Nat} {a b : Activity} {s : HostedShard}

/-! ### Flushes and closings -/

theorem shards_setShard (n : Node) (i k : Nat) (s : HostedShard) :
    (n.setShard i s).roster.shards[k]? =
      if i = k then n.roster.shards[k]?.map fun _ => s else n.roster.shards[k]? := by
  show (n.roster.shards.modify i _)[k]? = _
  rw [List.getElem?_modify]
  split <;> simp

/-- What a flush of a shard makes of each shard. -/
theorem shards_flush (hs : n.roster.shards[k]? = some s) (i : Nat) (force : Bool) :
    (n.flush i force).1.roster.shards[k]? = some
      (if i = k then { s with ledger := (s.ledger.flush force n (save s.record)).1 } else s) := by
  cases ht : n.roster.shards[i]? with
  | none =>
      have hi : i ≠ k := by
        rintro rfl
        rw [hs] at ht
        cases ht
      rw [flush_of_none ht, if_neg hi]
      exact hs
  | some t =>
      obtain ⟨files, memory, heq⟩ := exists_flush ht force
      rw [heq, shards_setShard]
      by_cases hi : i = k
      · subst hi
        obtain rfl : s = t := Option.some.inj (hs.symm.trans ht)
        rw [if_pos rfl, if_pos rfl, hs]
        rfl
      · rw [if_neg hi, if_neg hi]
        exact hs

/-- Storing goes by the files and the memory alone. -/
theorem save_congr (place : RecordPlace) (point : CommitPoint) (hfiles : m.files = n.files)
    (hmemory : m.memory = n.memory) : (save place m point).2 = (save place n point).2 := by
  cases place with
  | file path => simp only [save, hfiles]
  | memory =>
      simp only [save, hmemory]
      split <;> rfl

/-- What closing a shard makes of each shard. -/
theorem shards_closeShard (hs : n.roster.shards[k]? = some s) (id : ShardId) :
    (n.closeShard id).1.roster.shards[k]? = some
      (if n.roster.find? id = some k then
        { s.close with ledger := (s.ledger.flush false n (save s.record)).1 }
      else s) := by
  rw [closeShard]
  cases hremove : n.roster.remove id with
  | none =>
      have hfind : n.roster.find? id = none := Option.map_eq_none_iff.mp hremove
      rw [hfind, if_neg (by simp)]
      exact hs
  | some removed =>
      obtain ⟨r, i⟩ := removed
      obtain ⟨hfind, hr⟩ := Roster.remove_eq_some hremove
      have hshard : r.shards[k]? = some (if i = k then s.close else s) := by
        rw [hr]
        show (n.roster.shards.modify i HostedShard.close)[k]? = _
        rw [List.getElem?_modify, hs]
        rfl
      have hledger := (s.ledger.flush_congr n { n with roster := r } (save s.record)
        (save_congr s.record s.ledger.point rfl rfl) false).1
      show (flush { n with roster := r } i false).1.roster.shards[k]? = _
      rw [shards_flush hshard, hfind]
      by_cases hi : i = k
      · subst hi
        rw [if_pos rfl, if_pos rfl, if_pos rfl, ← hledger]
        rfl
      · rw [if_neg hi, if_neg hi, if_neg (by simpa using hi)]

/-! ### Steps -/

theorem exists_effect_setShard {i : Nat} {t t' : HostedShard} (hs : n.roster.shards[k]? = some s)
    (ht : n.roster.shards[i]? = some t) (hsame : i = k → n.Effect k a b t t')
    (hother : i ≠ k → n.tells k a = []) :
    ∃ s', (n.setShard i t').roster.shards[k]? = some s' ∧ n.Effect k a b s s' := by
  rw [shards_setShard, hs]
  by_cases hi : i = k
  · obtain rfl : s = t := Option.some.inj (hs.symm.trans (hi ▸ ht))
    exact ⟨t', by simp [hi], hsame hi⟩
  · exact ⟨s, by simp [hi], .none (hother hi)⟩

/-- **What every step makes of every shard.** -/
theorem Acts.effect (h : n.Acts number a b m) (hs : n.roster.shards[k]? = some s) :
    ∃ s', m.roster.shards[k]? = some s' ∧ n.Effect k a b s s' := by
  have hstays : m.roster.shards[k]? = n.roster.shards[k]? → n.tells k a = [] →
      ∃ s', m.roster.shards[k]? = some s' ∧ n.Effect k a b s s' :=
    fun hm ha => ⟨s, hm.trans hs, .none ha⟩
  have hroster : m.roster = n.roster → m.roster.shards[k]? = n.roster.shards[k]? := by
    intro hroster
    rw [hroster]
  have hlt := (List.getElem?_eq_some_iff.mp hs).1
  have hadd : ∀ draft, (n.roster.add draft).1.shards[k]? = n.roster.shards[k]? :=
    fun draft => List.getElem?_append_left hlt
  cases h with
  | follow h => exact hstays (hroster h.roster) rfl
  | reclaim h => exact hstays (hroster h) rfl
  | @deafen channel ticket hasEnded _ h hreceipt =>
      refine hstays (hroster h.roster) ?_
      rw [tells]
      cases hheard : n.receipt? channel ticket hasEnded with
      | none => rfl
      | some receipt =>
          rw [hreceipt receipt hheard]
  | hear receipt h _ _ _ hreceipt =>
      rw [h]
      unfold Roster.hear
      split
      · rename_i role error
        rw [Roster.shards_failAll, hs]
        refine ⟨_, rfl, ?_⟩
        split
        · rename_i hhosted
          exact .hear (by simp only [tells, hreceipt, if_pos hhosted])
        · rename_i hhosted
          exact .none (by simp only [tells, hreceipt, if_neg hhosted])
      · rename_i hother
        refine ⟨s, hs, .none ?_⟩
        rw [tells, hreceipt]
        split
        · rename_i role error heq
          exact absurd (Option.some.inj heq) (hother role error)
        · rfl
  | loop _ h => exact hstays (hroster h.roster) rfl
  | loopRefresh ht hnext =>
      refine exists_effect_setShard hs ht ?_ fun _ => rfl
      rintro rfl
      exact .refresh (by simp [Activity.refresh?]) hnext
  | @loopFlush shard _ _ _ =>
      refine ⟨_, shards_flush hs shard false, ?_⟩
      split
      · rename_i hshard
        subst hshard
        exact .flush
      · exact .none rfl
  | opening _ h => exact hstays (hroster h.roster) rfl
  | apart _ h =>
      rw [h.roster] at hstays ⊢
      exact hstays (hadd _) rfl
  | turnDown h =>
      rw [h.roster] at hstays ⊢
      refine hstays ?_ rfl
      show ((n.roster.add _).1.shards.modify n.roster.shards.length _)[k]? = _
      rw [List.getElem?_modify_ne _ _ (Nat.ne_of_gt hlt), hadd]
  | host hhost h =>
      rw [h.roster] at hstays ⊢
      obtain ⟨-, rfl⟩ := Roster.register?_add_eq_some hhost
      exact hstays (hadd _) rfl
  | @talk shard _ _ call _ result _ h hcall =>
      refine hstays (hroster h.roster) ?_
      obtain ⟨retry, phase⟩ := call
      unfold tells
      split <;> simp_all
  | @write shard operation request call result t ht hcall =>
      obtain ⟨retry, phase⟩ := call
      obtain rfl : phase = .ended result := hcall
      refine exists_effect_setShard hs ht ?_ fun hother => by simp [tells, hother]
      rintro rfl
      exact .write
  | query h => exact hstays (hroster h.roster) rfl
  | refresh ht hnext =>
      refine exists_effect_setShard hs ht ?_ fun _ => rfl
      rintro rfl
      exact .refresh (by simp [Activity.refresh?]) hnext
  | report ht hnext =>
      obtain ⟨reported, rfl⟩ := HostedShard.exists_report hnext
      refine exists_effect_setShard hs ht ?_ fun _ => rfl
      rintro rfl
      exact .report reported

end Node

end ShardKeeper
