import ShardKeeper.Proofs.Node.Effects
import ShardKeeper.Proofs.Node.Service

/-!
# The log of a shard

A shard that was opened is written to, looked at, refreshed, flushed, failed and
closed, by anybody and in any order.  Everything that decides how it answers is in
the log of its events: whether it is closed, why it has failed, and how much was
written.

## Main definitions

* `ShardEvent.reason?`, `ShardEvent.isDone` — what an event means for the shard.
* `HostedShard.Told` — what a log makes of a shard.
* `Node.Use`, `Node.Uses` — what may happen around a shard, and what is told of it.
* `Node.Refuses` — a shard that takes no more operations.
* `Node.AnswersBy` — how a shard answers by its log.

## Main results

* `Node.Uses.told` — the log decides what has become of the shard.
* `Node.exists_uses_write` — a write is a course of uses, which tells what it returns.
* `Node.answers_by_log` — a shard answers by its log.
-/

namespace ShardKeeper

namespace ShardEvent

/-- The failure of the shard that an event is, if it is one.  A write fails it if its call was
refused for good or met with failures to the last attempt, and then with the text of that error. -/
def reason? : ShardEvent → Option String
  | .returned _ result =>
    match result.outcome, result.toExcept HostedShard.writeLabel with
    | .fatal, .error e | .exhausted, .error e => some e.message
    | _, _ => none
  | .failed reason => some reason
  | .closed => none

/-- Whether the event is a write of a kind that succeeded. -/
def isDone (operation : DocumentChange.Operation) : ShardEvent → Bool
  | .returned operation' result => decide (operation' = operation ∧ result.outcome = .success)
  | _ => false

end ShardEvent

namespace HostedShard

variable {s s' s'' : HostedShard} {log log' : List ShardEvent}

/-- The shard `s'` is what the events of a log have made of the shard `s`. -/
structure Told (s : HostedShard) (log : List ShardEvent) (s' : HostedShard) : Prop where
  id : s'.id = s.id
  isClosed : s'.isClosed = (s.isClosed || log.contains .closed)
  failure : s'.failure = s.failure.or (log.findSome? ShardEvent.reason?)
  indexed : s'.indexed = s.indexed + log.countP (ShardEvent.isDone .index)
  deleted : s'.deleted = s.deleted + log.countP (ShardEvent.isDone .delete)

namespace Told

theorem refl (s : HostedShard) : s.Told [] s :=
  ⟨rfl, (Bool.or_false _).symm, Option.or_none.symm, rfl, rfl⟩

theorem append (h : s.Told log s') (h' : s'.Told log' s'') : s.Told (log ++ log') s'' where
  id := h'.id.trans h.id
  isClosed := by
    rw [h'.isClosed, h.isClosed, List.contains_append, Bool.or_assoc]
  failure := by rw [h'.failure, h.failure, List.findSome?_append, Option.or_assoc]
  indexed := by rw [h'.indexed, h.indexed, List.countP_append, Nat.add_assoc]
  deleted := by rw [h'.deleted, h.deleted, List.countP_append, Nat.add_assoc]

/-- A closed shard stays closed. -/
theorem isClosed_of (h : s.Told log s') (hclosed : s.isClosed = true) : s'.isClosed = true := by
  rw [h.isClosed, hclosed, Bool.true_or]

/-- The reason for a failure stays. -/
theorem failure_of {reason : String} (h : s.Told log s') (hs : s.failure = some reason) :
    s'.failure = some reason := by
  rw [h.failure, hs, Option.some_or]

end Told

/-- No event is told of the ledger, of what was reported and of refreshes under way. -/
theorem told_aside (s : HostedShard) (ledger : CommitLedger)
    (reported : Option (Statistics × Int)) (isRefreshing : Bool) :
    s.Told [] { s with ledger, reported, isRefreshing } :=
  ⟨rfl, (Bool.or_false _).symm, Option.or_none.symm, rfl, rfl⟩

theorem told_fail (s : HostedShard) (reason : String) : s.Told [.failed reason] (s.fail reason) :=
  ⟨rfl, (Bool.or_false _).symm, rfl, rfl, rfl⟩

theorem told_close (s : HostedShard) : s.Told [.closed] s.close :=
  ⟨rfl, (Bool.or_true _).symm, Option.or_none.symm, rfl, rfl⟩

/-- A write counts if it succeeds, and fails the shard if it fails for good. -/
theorem told_afterWrite (s : HostedShard) (operation : DocumentChange.Operation)
    (result : CallResult WriteResponse) :
    s.Told [.returned operation result] (s.afterWrite operation result).1 := by
  obtain ⟨response, outcome, attempts, elapsed⟩ := result
  cases outcome with
  | success | interrupted =>
      cases operation <;> exact ⟨rfl, (Bool.or_false _).symm, Option.or_none.symm, rfl, rfl⟩
  | fatal | exhausted =>
      cases operation <;> exact ⟨rfl, (Bool.or_false _).symm, rfl, rfl, rfl⟩

/-- What a write answers does not depend on the shard. -/
theorem afterWrite_snd_congr (s t : HostedShard) (operation : DocumentChange.Operation)
    (result : CallResult WriteResponse) :
    (s.afterWrite operation result).2 = (t.afterWrite operation result).2 := by
  rw [afterWrite, afterWrite]
  split <;> rfl

end HostedShard

namespace Node

variable {n m p : Node} {number k : Nat} {a b : Activity} {s s' : HostedShard}
  {log log' : List ShardEvent}

/-! ### Uses -/

/-- Something happens at a node, and tells events of the shard `k`. -/
inductive Use (n : Node) (k : Nat) : List ShardEvent → Node → Prop where
  | act {number : Nat} {a : Activity} {m : Node} (ha : n.activities[number]? = some a)
      (h : n.move? number = some m) : Use n k (n.tells k a) m
  /-- A task that waits to refresh a shard again does so although it was cancelled. -/
  | wake {number shard : Nat} {interval : Duration} {ticket : TaskTicket} {ticker : Ticker}
      (ticker' : Ticker)
      (h : n.activities[number]? = some (.tending shard interval ticket (.waiting ticker))) :
      Use n k [] (n.set number (.tending shard interval ticket (.refreshing ticker' .arriving)))
  | openShard (plan : OpeningPlan) (token : Token) :
      Use n k [] (n.begin (.opening plan token .arriving)).1
  | closeShard (id : ShardId) :
      Use n k (if n.roster.find? id = some k then [.closed] else []) (n.closeShard id).1
  | flush (shard : Nat) (force : Bool) : Use n k [] (n.flush shard force).1
  | fail (shard : Nat) (reason : String) :
      Use n k (if shard = k then [.failed reason] else [])
        { n with roster := n.roster.modify shard fun s => s.fail reason }
  | close (shard : Nat) :
      Use n k (if shard = k then [.closed] else [])
        { n with roster := n.roster.modify shard HostedShard.close }
  | around {m : Node} (h : n.Around m) : Use n k [] m

/-- Any number of uses, and all that they tell. -/
inductive Uses (n : Node) (k : Nat) : List ShardEvent → Node → Prop where
  | refl : Uses n k [] n
  | tail {log log' : List ShardEvent} {m p : Node} (h : Uses n k log m) (huse : m.Use k log' p) :
      Uses n k (log ++ log') p

theorem Uses.trans (h : n.Uses k log m) (h' : m.Uses k log' p) : n.Uses k (log ++ log') p := by
  induction h' with
  | refl => rwa [List.append_nil]
  | tail _ huse ih =>
      rw [← List.append_assoc]
      exact ih.tail huse

theorem Uses.single (h : n.Use k log m) : n.Uses k log m := Uses.refl.tail h

/-- What the next steps of several activities tell of the shard `k`. -/
def toldBy (n : Node) (k : Nat) : List Nat → List ShardEvent
  | [] => []
  | number :: rest =>
    match n.activities[number]?, n.move? number with
    | some a, some m => n.tells k a ++ m.toldBy k rest
    | _, _ => []

theorem uses_of_moves? (k : Nat) {numbers : List Nat} (h : n.moves? numbers = some m) :
    n.Uses k (n.toldBy k numbers) m := by
  induction numbers generalizing n with
  | nil =>
      obtain rfl := Option.some.inj h
      exact .refl
  | cons number numbers ih =>
      obtain ⟨p, hmove, hrest⟩ := Option.bind_eq_some_iff.mp h
      obtain ⟨a, b, ha, -⟩ := exists_acts_of_move? hmove
      rw [toldBy, ha, hmove]
      exact (Uses.single (.act ha hmove)).trans (ih hrest)

theorem tells_of_refresh? {phase : RefreshPhase} (h : a.refresh? k = some phase) :
    n.tells k a = [] := by
  cases a with
  | writing | listening => cases h
  | _ => rfl

/-- A step makes of a shard what it tells of it. -/
theorem Effect.told (h : n.Effect k a b s s') : s.Told (n.tells k a) s' := by
  cases h with
  | none htells =>
      rw [htells]
      exact .refl s
  | hear htells =>
      rw [htells]
      exact s.told_fail _
  | refresh ha hnext =>
      rw [tells_of_refresh? ha]
      rcases HostedShard.refresh_cases hnext with ⟨_, rfl⟩ | ⟨_, _, _, -, rfl, -⟩
      · exact s.told_aside ..
      · exact s.told_aside ..
  | flush => exact s.told_aside ..
  | @write operation _ _ result =>
      rw [tells, if_pos rfl]
      exact s.told_afterWrite operation result
  | report => exact s.told_aside ..

theorem exists_told_modify {i : Nat} {f : HostedShard → HostedShard}
    (hs : n.roster.shards[k]? = some s) (h : s.Told log (f s)) :
    ∃ s', (n.roster.modify i f).shards[k]? = some s' ∧ s.Told (if i = k then log else []) s' := by
  show ∃ s', (n.roster.shards.modify i f)[k]? = some s' ∧ _
  rw [List.getElem?_modify, hs]
  by_cases hi : i = k
  · simpa [hi] using h
  · simpa [hi] using HostedShard.Told.refl s

/-- **What happens at a node makes of a shard what it tells of it.** -/
theorem Use.told (h : n.Use k log m) (hs : n.roster.shards[k]? = some s) :
    ∃ s', m.roster.shards[k]? = some s' ∧ s.Told log s' := by
  cases h with
  | act ha hmove =>
      obtain ⟨b, hacts⟩ := acts_of_move? ha hmove
      obtain ⟨s', hs', heffect⟩ := hacts.effect hs
      exact ⟨s', hs', heffect.told⟩
  | wake => exact ⟨s, hs, .refl s⟩
  | openShard => exact ⟨s, hs, .refl s⟩
  | closeShard id =>
      refine ⟨_, shards_closeShard hs id, ?_⟩
      split
      · exact s.told_close.append (s.close.told_aside ..)
      · exact .refl s
  | flush shard force =>
      refine ⟨_, shards_flush hs shard force, ?_⟩
      split
      · exact s.told_aside ..
      · exact .refl s
  | fail shard reason => exact exists_told_modify hs (s.told_fail reason)
  | close shard => exact exists_told_modify hs s.told_close
  | around h =>
      rw [h.roster]
      exact ⟨s, hs, .refl s⟩

/-- **The log decides what has become of the shard.** -/
theorem Uses.told (h : n.Uses k log m) (hs : n.roster.shards[k]? = some s) :
    ∃ s', m.roster.shards[k]? = some s' ∧ s.Told log s' := by
  induction h with
  | refl => exact ⟨s, hs, .refl s⟩
  | tail _ huse ih =>
      obtain ⟨t, ht, htold⟩ := ih
      obtain ⟨u, hu, htold'⟩ := huse.told ht
      exact ⟨u, hu, htold.append htold'⟩

/-! ### Refusals -/

/-- The shard `k` refuses writes and look-ups with an error, and nothing comes of asking for them;
in particular nothing is asked of the engine. -/
def Refuses (n : Node) (k : Nat) (e : ShardError) : Prop :=
  ∀ (change : DocumentChange) (documentId : String) (changes : List (Timed.Change Node)),
    n.write k change changes = (n, some (.error e)) ∧
      n.query k documentId changes = (n, some (.error e))

theorem refuses_of_refusal? {e : ShardError} (hs : n.roster.shards[k]? = some s)
    (h : s.refusal? = some e) : n.Refuses k e := by
  intro change documentId changes
  rw [write, query, hs]
  simp only [h, and_self]

/-! ### Writes, look-ups and refreshes -/

/-- What a write answers, by the end of its call. -/
theorem afterWrite_snd (s : HostedShard) (operation : DocumentChange.Operation)
    (result : CallResult WriteResponse) :
    ((s.afterWrite operation result).2 = .ok () ↔ result.outcome = .success) ∧
      ∀ reason, (ShardEvent.returned operation result).reason? = some reason ↔
        (result.outcome = .fatal ∨ result.outcome = .exhausted) ∧
          ∃ e, (s.afterWrite operation result).2 = .error (.call e) ∧ e.message = reason := by
  obtain ⟨response, outcome, attempts, elapsed⟩ := result
  cases outcome <;> simp [HostedShard.afterWrite, CallResult.toExcept, ShardEvent.reason?]

theorem move?_of_writing {operation : DocumentChange.Operation} {request : WriteRequest}
    {retry : Retry} {result : CallResult WriteResponse} (hs : n.roster.shards[k]? = some s)
    (ha : n.activities[number]? =
      some (.writing k operation request ⟨retry, .ended result⟩ none)) :
    n.move? number = some ((n.setShard k (s.afterWrite operation result).1).set number
      (.writing k operation request ⟨retry, .ended result⟩
        (some (s.afterWrite operation result).2))) := by
  rw [move?, ha]
  show n.moveWriting? number k operation request ⟨retry, .ended result⟩ none = _
  rw [moveWriting?, hs]
  rfl

/-- A step of a refresh. -/
theorem exists_of_refresh? {phase : RefreshPhase} (ha : n.activities[number]? = some a)
    (hphase : a.refresh? k = some phase) (h : n.move? number = some m) :
    ∃ s s' phase', n.roster.shards[k]? = some s ∧
      phase.next? s (n.reading s) = some (s', phase') ∧
      m = (n.setShard k s').set number (a.refreshed phase') := by
  obtain ⟨b, hacts⟩ := acts_of_move? ha h
  cases hacts with
  | loopRefresh ht hnext =>
      obtain ⟨rfl, heq⟩ := Option.ite_none_right_eq_some.mp hphase
      obtain rfl := Option.some.inj heq
      exact ⟨_, _, _, ht, hnext, rfl⟩
  | refresh ht hnext =>
      obtain ⟨rfl, heq⟩ := Option.ite_none_right_eq_some.mp hphase
      obtain rfl := Option.some.inj heq
      exact ⟨_, _, _, ht, hnext, rfl⟩
  | loop hturns => cases hturns <;> cases hphase
  | _ => cases hphase

theorem activities_set (n : Node) (h : n.activities[number]? = some a) :
    (n.set number b).activities[number]? = some b := by
  show (n.activities.set number b)[number]? = some b
  exact List.getElem?_set_self (List.getElem?_eq_some_iff.mp h).1

/-- An activity is left alone, or it acts and tells what it has to tell. -/
theorem Use.own_cases (h : n.Use k log m) (ha : n.activities[number]? = some a) :
    m.activities[number]? = some a ∨
      ∃ b, n.Acts number a b m ∧ m.activities[number]? = some b ∧ log = n.tells k a := by
  have hacted : ∀ {i : Nat} {c d : Activity}, n.activities[i]? = some c → n.Acts i c d m →
      log = n.tells k c → m.activities[number]? = some a ∨
        ∃ b, n.Acts number a b m ∧ m.activities[number]? = some b ∧ log = n.tells k a := by
    intro i c d hc hacts hlog
    by_cases hi : number = i
    · subst hi
      obtain rfl : a = c := Option.some.inj (ha.symm.trans hc)
      exact Or.inr ⟨d, hacts, hacts.own hc, hlog⟩
    · exact Or.inl (hacts.other hc hi ha)
  cases h with
  | act hb hmove =>
      obtain ⟨c, hacts⟩ := acts_of_move? hb hmove
      exact hacted hb hacts rfl
  | wake ticker' hb => exact hacted hb (acts_wake ticker') rfl
  | openShard => exact Or.inl (activities_begin ha)
  | closeShard id =>
      rw [activities_closeShard]
      exact Or.inl ha
  | flush =>
      rw [activities_flush]
      exact Or.inl ha
  | fail => exact Or.inl ha
  | close => exact Or.inl ha
  | around h => exact Or.inl (h.stays ha)

/-- What has ended stays as it is. -/
theorem Use.stays (h : n.Use k log m) (ha : n.activities[number]? = some a)
    (hended : a.hasEnded = true) : m.activities[number]? = some a := by
  rcases h.own_cases ha with hstays | ⟨b, hacts, -, -⟩
  · exact hstays
  · rw [hacts.hasEnded] at hended
    cases hended

theorem Uses.stays (h : n.Uses k log m) (ha : n.activities[number]? = some a)
    (hended : a.hasEnded = true) : m.activities[number]? = some a := by
  induction h with
  | refl => exact ha
  | tail _ huse ih => exact huse.stays ih hended

/-! ### Operations -/

theorem ServicePart.exists_use (k : Nat) (h : n.ServicePart m) : ∃ log, n.Use k log m := by
  cases h with
  | act hmove =>
      obtain ⟨a, b, ha, -⟩ := exists_acts_of_move? hmove
      exact ⟨_, .act ha hmove⟩
  | wake ticker' h => exact ⟨_, .wake ticker' h⟩
  | openShard token => exact ⟨_, .openShard _ token⟩
  | closeShard id => exact ⟨_, .closeShard id⟩
  | around h => exact ⟨_, .around h⟩

theorem ServiceCourse.exists_uses (k : Nat) (h : n.ServiceCourse m) : ∃ log, n.Uses k log m := by
  have hparts := h.partCourse
  clear h
  induction hparts with
  | refl => exact ⟨_, .refl⟩
  | tail _ hpart ih =>
      obtain ⟨log, huses⟩ := ih
      obtain ⟨log', huse⟩ := hpart.exists_use k
      exact ⟨_, huses.tail huse⟩

/-- A write that was asked for is under way, or it has returned what its call came to, and the log
tells so. -/
theorem Uses.writing {operation : DocumentChange.Operation} {request : WriteRequest}
    {call : Call WriteResponse} (h : n.Uses k log m)
    (ha : n.activities[number]? = some (.writing k operation request call none)) :
    ∃ call' result, m.activities[number]? = some (.writing k operation request call' result) ∧
      ∀ answer, result = some answer → ∃ r, call'.phase = .ended r ∧
        .returned operation r ∈ log ∧ ∀ s : HostedShard, (s.afterWrite operation r).2 = answer := by
  induction h with
  | refl => exact ⟨call, none, ha, fun answer h => by cases h⟩
  | tail _ huse ih =>
      obtain ⟨call', result, ha', htold⟩ := ih
      rcases huse.own_cases ha' with hstays | ⟨b, hacts, hb, hlog⟩
      · refine ⟨call', result, hstays, fun answer h => ?_⟩
        obtain ⟨r, hended, hmem, hanswer⟩ := htold answer h
        exact ⟨r, hended, List.mem_append_left _ hmem, hanswer⟩
      · cases hacts with
        | talk => exact ⟨_, none, hb, fun answer h => by cases h⟩
        | @write _ _ _ _ r s _ hended =>
            obtain ⟨retry, phase⟩ := call'
            obtain rfl : phase = .ended r := hended
            refine ⟨_, _, hb, fun answer h => ⟨r, rfl, ?_, fun t => ?_⟩⟩
            · rw [hlog, tells, if_pos rfl]
              exact List.mem_append_right _ (List.mem_singleton.mpr rfl)
            · rw [← Option.some.inj h]
              exact t.afterWrite_snd_congr s operation r

/-- What an operation that takes time returns is read off its activity in the end. -/
theorem complete_snd {α : Type} (n : Node) (a : Activity) (result? : Activity → Option α)
    (changes : List (Timed.Change Node)) :
    (n.complete a result? changes).2 =
      (n.complete a result? changes).1.activities[n.activities.length]?.bind result? := rfl

theorem exists_uses_complete {α : Type} (n : Node) (k : Nat) (a : Activity)
    (ha : a.isRequest = true) (result? : Activity → Option α) (changes : List (Timed.Change Node))
    (hchanges : ∀ c ∈ changes, ∀ k : Node, k.ServiceCourse (c.apply k)) :
    ∃ log, (n.begin a).1.Uses k log (n.complete a result? changes).1 ∧
      n.Uses k log (n.complete a result? changes).1 := by
  obtain ⟨log, huses⟩ := (n.serviceCourse_complete a result? changes hchanges).exists_uses k
  exact ⟨log, huses, (Uses.single (.around (n.around_begin ha))).trans huses⟩

/-- **A write is a course of uses**, whatever else happens in between.  What it returns is a
refusal, or what its call came to, and then the log tells so. -/
theorem exists_uses_write (hs : n.roster.shards[k]? = some s) (change : DocumentChange)
    (token : Token) (timeline : Timeline) :
    ∃ log, n.Uses k log (n.write k change (n.changes token timeline)).1 ∧
      ∀ answer, (n.write k change (n.changes token timeline)).2 = some answer →
        (∃ e, s.refusal? = some e ∧ answer = .error e) ∨
          ∃ r, .returned change.operation r ∈ log ∧
            (s.afterWrite change.operation r).2 = answer := by
  rw [write, hs]
  dsimp only
  cases hrefusal : s.refusal? with
  | some e => exact ⟨[], .refl, fun answer h => Or.inl ⟨e, rfl, (Option.some.inj h).symm⟩⟩
  | none =>
      obtain ⟨log, hrun, huses⟩ := n.exists_uses_complete k
        (.writing k change.operation (s.writeRequest change) (.start n.backoff n.clock) none) rfl
        _ _ (n.serviceCourse_changes token timeline)
      refine ⟨log, huses, fun answer h => Or.inr ?_⟩
      obtain ⟨call, result, ha, htold⟩ := hrun.writing (List.getElem?_concat_length ..)
      rw [complete_snd, ha] at h
      obtain ⟨r, -, hmem, hanswer⟩ := htold answer h
      exact ⟨r, hmem, hanswer s⟩

/-- **Look-ups and refreshes are courses of uses**, whatever else happens in between. -/
theorem exists_uses_query (n : Node) (k shard : Nat) (documentId : String) (token : Token)
    (timeline : Timeline) :
    ∃ log, n.Uses k log (n.query shard documentId (n.changes token timeline)).1 := by
  rw [query]
  split
  · exact ⟨_, .refl⟩
  · split
    · exact ⟨_, .refl⟩
    · rename_i s _ _ _
      obtain ⟨log, -, huses⟩ := n.exists_uses_complete k
        (.querying shard (s.queryRequest documentId) (.start n.backoff n.clock)) rfl _ _
        (n.serviceCourse_changes token timeline)
      exact ⟨log, huses⟩

theorem exists_uses_refresh (n : Node) (k shard : Nat) :
    ∃ log, n.Uses k log (n.refresh shard).1 := by
  obtain ⟨log, -, huses⟩ := n.exists_uses_complete k (.refreshing shard .arriving) rfl _ []
    (fun c hc => absurd hc List.not_mem_nil)
  exact ⟨log, huses⟩

/-! ### Answers -/

/-- A write to the shard `k` whose call has ended returns, and that is the event.  It succeeds if
the call did; and it fails a shard that had not failed exactly if the call was refused for good, or
met with failures to the last attempt, for the text of its error. -/
def AnswersWrites (n : Node) (k : Nat) (s : HostedShard) : Prop :=
  ∀ {number : Nat} {operation : DocumentChange.Operation} {request : WriteRequest} {retry : Retry}
    {result : CallResult WriteResponse},
    n.activities[number]? = some (.writing k operation request ⟨retry, .ended result⟩ none) →
    ∃ m t answer, n.move? number = some m ∧ n.Use k [.returned operation result] m ∧
      m.roster.shards[k]? = some t ∧
      m.activities[number]? =
        some (.writing k operation request ⟨retry, .ended result⟩ (some answer)) ∧
      (answer = .ok () ↔ result.outcome = .success) ∧
      (s.failure = none → ∀ reason, t.failure = some reason ↔
        (result.outcome = .fatal ∨ result.outcome = .exhausted) ∧
          ∃ e, answer = .error (.call e) ∧ e.message = reason)

/-- No step of a look-up in the shard `k` changes any shard. -/
def AnswersQueries (n : Node) (k : Nat) : Prop :=
  ∀ {number : Nat} {request : QueryRequest} {call : Call QueryResponse} {m : Node},
    n.activities[number]? = some (.querying k request call) → n.move? number = some m →
    m.roster = n.roster

/-- No step of a refresh of the shard `k` stores anything.  One that begins when the shard takes no
operations ends at once and changes nothing; and a step that changes the ledger is the one in which
the refresh ends, without an error. -/
def AnswersRefreshes (n : Node) (k : Nat) (s : HostedShard) : Prop :=
  ∀ {number : Nat} {a : Activity} {phase : RefreshPhase} {m : Node},
    n.activities[number]? = some a → a.refresh? k = some phase → n.move? number = some m →
    m.files = n.files ∧ m.memory = n.memory ∧
      ∃ t phase', m.roster.shards[k]? = some t ∧
        m.activities[number]? = some (a.refreshed phase') ∧
        (phase = .arriving → s.refusal?.isSome = true → t = s ∧ phase' = .done (.ok false)) ∧
        (t.ledger = s.ledger ∨ ∃ changed, phase' = .done (.ok changed)) ∧
        ∀ {log : List ShardEvent} {p : Node} {e : StorageFault}, a = .refreshing k phase →
          m.Uses k log p → p.activities[number]? = some (.refreshing k (.done (.error e))) →
          t.ledger = s.ledger

/-- How the shard `s` of the number `k` answers, after what a log tells of it. -/
structure AnswersBy (n : Node) (k : Nat) (log : List ShardEvent) (s : HostedShard) : Prop where
  isClosed : s.isClosed = log.contains .closed
  failure : s.failure = log.findSome? ShardEvent.reason?
  indexed : s.indexed = log.countP (ShardEvent.isDone .index)
  deleted : s.deleted = log.countP (ShardEvent.isDone .delete)
  refuses_closed : s.isClosed = true → n.Refuses k (.closed s.id)
  refuses_failed : ∀ reason, s.isClosed = false → s.failure = some reason →
    n.Refuses k (.failed s.id reason)
  /-- Later on it is still closed, and has still failed for that reason. -/
  later : ∀ {log' : List ShardEvent} {m : Node}, n.Uses k log' m →
    ∃ t, m.roster.shards[k]? = some t ∧ t.id = s.id ∧ (s.isClosed = true → t.isClosed = true) ∧
      ∀ reason, s.failure = some reason → t.failure = some reason
  /-- Whatever is asked for is a course of uses.  What a write returns is a refusal, or what its
  call came to, and then the log tells so. -/
  operations : ∀ (change : DocumentChange) (documentId : String) (token : Token)
    (timeline : Timeline),
    (∃ log', n.Uses k log' (n.write k change (n.changes token timeline)).1 ∧
      ∀ answer, (n.write k change (n.changes token timeline)).2 = some answer →
        (∃ e, s.refusal? = some e ∧ answer = .error e) ∨
          ∃ r, .returned change.operation r ∈ log' ∧
            (s.afterWrite change.operation r).2 = answer) ∧
      (∃ log', n.Uses k log' (n.query k documentId (n.changes token timeline)).1) ∧
      ∃ log', n.Uses k log' (n.refresh k).1
  writes : n.AnswersWrites k s
  queries : n.AnswersQueries k
  refreshes : n.AnswersRefreshes k s

theorem answersWrites (hs : n.roster.shards[k]? = some s) : n.AnswersWrites k s := by
  intro number operation request retry result ha
  have hmove := move?_of_writing hs ha
  have htells : n.tells k (.writing k operation request ⟨retry, .ended result⟩ none) =
      [.returned operation result] := if_pos rfl
  have huse := Use.act (k := k) ha hmove
  rw [htells] at huse
  obtain ⟨hok, hreason⟩ := afterWrite_snd s operation result
  refine ⟨_, (s.afterWrite operation result).1, _, hmove, huse, ?_,
    activities_set (n.setShard k (s.afterWrite operation result).1) ha, hok, ?_⟩
  · show (n.setShard k _).roster.shards[k]? = some (s.afterWrite operation result).1
    rw [shards_setShard, if_pos rfl, hs, Option.map_some]
  · intro hfailure reason
    rw [(s.told_afterWrite operation result).failure, hfailure, Option.none_or, ← hreason reason]
    simp

theorem answersQueries (n : Node) (k : Nat) : n.AnswersQueries k := by
  intro number request call m ha h
  obtain ⟨b, hacts⟩ := acts_of_move? ha h
  cases hacts with
  | query h => exact h.roster

theorem answersRefreshes (hs : n.roster.shards[k]? = some s) : n.AnswersRefreshes k s := by
  intro number a phase m ha hphase h
  obtain ⟨s', t, phase', hs', hnext, rfl⟩ := exists_of_refresh? ha hphase h
  obtain rfl : s = s' := Option.some.inj (hs.symm.trans hs')
  have hactivity : ((n.setShard k t).set number (a.refreshed phase')).activities[number]? =
      some (a.refreshed phase') := activities_set (n.setShard k t) ha
  have hledger : t.ledger = s.ledger ∨ ∃ changed, phase' = .done (.ok changed) := by
    rcases HostedShard.refresh_cases hnext with ⟨_, rfl⟩ | ⟨_, _, _, -, -, hdone⟩
    · exact Or.inl rfl
    · exact Or.inr ⟨_, hdone⟩
  refine ⟨rfl, rfl, t, phase', ?_, hactivity, ?_, hledger, ?_⟩
  · show (n.setShard k t).roster.shards[k]? = some t
    rw [shards_setShard, if_pos rfl, hs, Option.map_some]
  · rintro rfl hrefused
    obtain ⟨rfl, rfl⟩ := Prod.mk.inj (Option.some.inj hnext)
    exact ⟨rfl, if_pos hrefused⟩
  · rintro log p e rfl huses hend
    rcases hledger with hledger | ⟨changed, rfl⟩
    · exact hledger
    · -- it has ended without an error, and so it has ended for good
      have hdone := huses.stays hactivity rfl
      rw [hend] at hdone
      cases hdone

/-- **A shard answers by its log**, whatever has happened since it was opened. -/
theorem answers_by_log {id : ShardId} {slice : HashSlice} {ledger : CommitLedger}
    {record : RecordPlace} {source : CheckpointSource} {token : Token} {age : Duration}
    (hopened : n.roster.shards[k]? = some (.opened id slice ledger record source token age))
    (h : n.Uses k log m) :
    ∃ s, m.roster.shards[k]? = some s ∧ s.id = id ∧ m.AnswersBy k log s := by
  obtain ⟨s, hs, htold⟩ := h.told hopened
  refine ⟨s, hs, htold.id, ?_⟩
  exact
    { isClosed := htold.isClosed
      failure := htold.failure
      indexed := htold.indexed.trans (Nat.zero_add _)
      deleted := htold.deleted.trans (Nat.zero_add _)
      refuses_closed := fun hclosed => refuses_of_refusal? hs (if_pos hclosed)
      refuses_failed := fun reason hopen hfailed => refuses_of_refusal? hs (by
        rw [HostedShard.refusal?, hopen, hfailed]
        rfl)
      later := fun huses => by
        obtain ⟨t, ht, htold'⟩ := huses.told hs
        exact ⟨t, ht, htold'.id, htold'.isClosed_of, fun _ => htold'.failure_of⟩
      operations := fun change documentId token timeline =>
        ⟨exists_uses_write hs change token timeline,
          m.exists_uses_query k k documentId token timeline, m.exists_uses_refresh k k⟩
      writes := answersWrites hs
      queries := m.answersQueries k
      refreshes := answersRefreshes hs }

end Node

namespace Node.Rehearsal

/-- The name of a shard. -/
def name : ShardId := ⟨"t", 0⟩

/-- A node that nobody has used, and whose engine has the shard. -/
def idle : Node :=
  { starting ⟨⟨"r"⟩⟩ .empty ⟨.ofSeconds 1, .ofSeconds 60⟩ ⟨.ofMillis 50, 2, 10, .ofSeconds 5⟩
      ⟨3, .ofSeconds 1⟩ with
    feed := CatalogFeed.empty.publish ⟨[("t", [(0, ⟨["0_65535"]⟩)])]⟩ }

/-- The shard has been opened. -/
def opened : Node :=
  ((idle.begin (.opening ⟨name, 1, .empty 8 60000, .memory, .told, .ofSeconds 1, none⟩
    TaskGroup.root .arriving)).1.moves? [0, 0, 0]).getD idle

/-- A write has been asked for, and the engine will answer so. -/
def asking (n : Node) (operation : DocumentChange.Operation) (answer : WriteResponse) : Node :=
  { (n.begin (.writing 0 operation ⟨"t", 0, "_id=1"⟩ (.start n.backoff n.clock) none)).1 with
    searcher := { n.searcher with writes := [(answer, .ofSeconds 0)] } }

/-- A document has been indexed. -/
def indexed : Node := ((asking opened .index ⟨none, ""⟩).moves? [1, 1, 1]).getD idle

/-- A document was to be deleted, and the engine has refused that. -/
def refused : Node :=
  ((asking indexed .delete ⟨some .invalidRequest, "no"⟩).moves? [2, 2, 2]).getD idle

theorem use_asking (n : Node) (operation : DocumentChange.Operation) (answer : WriteResponse) :
    n.Use 0 [] (asking n operation answer) :=
  .around ⟨rfl, [_], rfl, fun a ha => by rw [List.mem_singleton.mp ha]; rfl⟩

end Node.Rehearsal

namespace Node

open Rehearsal

/-- A document is indexed, the deletion of it is refused for good, and the shard is closed. -/
theorem answers_by_log_of_two_writes :
    let log : List ShardEvent :=
      [.returned .index ⟨⟨none, ""⟩, .success, 1, 0⟩,
        .returned .delete ⟨⟨some .invalidRequest, "no"⟩, .fatal, 1, 0⟩, .closed]
    ∃ m s, opened.roster.shards[0]? =
        some (.opened name ⟨0, 65535⟩ (.opened (.empty 8 60000) .unknown) .memory .told
          TaskGroup.root (.ofSeconds 1)) ∧
      opened.Uses 0 log m ∧ m.roster.shards[0]? = some s ∧ s.id = name ∧ m.AnswersBy 0 log s ∧
      s.isClosed = true ∧ s.failure = some "searcher rejected write: InvalidRequest: no" ∧
      s.indexed = 1 ∧ s.deleted = 0 ∧ m.Refuses 0 (.closed name) := by
  intro log
  obtain ⟨hopened, hindexed, hrefused, htold, htold'⟩ :
      opened.roster.shards[0]? =
        some (.opened name ⟨0, 65535⟩ (.opened (.empty 8 60000) .unknown) .memory .told
          TaskGroup.root (.ofSeconds 1)) ∧
      ((asking opened .index ⟨none, ""⟩).moves? [1, 1, 1]).isSome = true ∧
      ((asking indexed .delete ⟨some .invalidRequest, "no"⟩).moves? [2, 2, 2]).isSome = true ∧
      (asking opened .index ⟨none, ""⟩).toldBy 0 [1, 1, 1] =
        [.returned .index ⟨⟨none, ""⟩, .success, 1, 0⟩] ∧
      (asking indexed .delete ⟨some .invalidRequest, "no"⟩).toldBy 0 [2, 2, 2] =
        [.returned .delete ⟨⟨some .invalidRequest, "no"⟩, .fatal, 1, 0⟩] := by
    decide
  have hwrite : opened.Uses 0 [.returned .index ⟨⟨none, ""⟩, .success, 1, 0⟩] indexed := by
    rw [← htold]
    exact (Uses.single (use_asking ..)).trans
      (uses_of_moves? 0 (eq_some_getD hindexed idle))
  have hwrite' : indexed.Uses 0
      [.returned .delete ⟨⟨some .invalidRequest, "no"⟩, .fatal, 1, 0⟩] refused := by
    rw [← htold']
    exact (Uses.single (use_asking ..)).trans
      (uses_of_moves? 0 (eq_some_getD hrefused idle))
  have huses : opened.Uses 0 log _ := (hwrite.trans hwrite').tail (.close 0)
  obtain ⟨s, hs, hid, hanswers⟩ := answers_by_log hopened huses
  have hclosed : s.isClosed = true := hanswers.isClosed.trans (by decide)
  refine ⟨_, s, hopened, huses, hs, hid, hanswers, hclosed, hanswers.failure.trans (by decide),
    hanswers.indexed.trans (by decide), hanswers.deleted.trans (by decide), ?_⟩
  rw [← hid]
  exact hanswers.refuses_closed hclosed

end Node

end ShardKeeper
