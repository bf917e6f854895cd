import ShardKeeper.Proofs.Durability.Refreshing
import ShardKeeper.Proofs.Node.Uses

/-!
# What refreshes of a shard do

Any number of refreshes of one shard may be under way: tasks that refresh it
again and again, and refreshes on demand.  Each of them waits for its turn, then
reads the checkpoint, the clock and the marker, and then enters what it has read;
and each of these is a step of its own, between which anybody may act.

## Main definitions

* `TickEvent`, `Tick` — what a refresh does in its turn, event by event and as a whole.
* `CommitLedger.afterTicks` — the ledger after some ticks, one after another.
* `Tick.Accounts` — what has become of a refresh on demand, by the ticks.
* `Node.Outside` — what happens to a node that is no step of an activity.
* `Node.TickCourse` — a course of a node, with what is told of the refreshes of one shard, under a
  clock that never goes back.

## Main results

* `Node.Use.exists_tickStep` — whatever may happen around a shard is a step of such a course.
* `Node.Acts.turn?_other`, `Node.Outside.turn?` — nobody takes or gives back the turn of another.
* `Node.Effect.unrefreshed`, `Node.Outside.unrefreshed` — only refreshes change what they go by.
-/

namespace ShardKeeper

/-! ### Ledgers that answer alike -/

namespace CommitLedger

variable {l l' : CommitLedger} {now checkpoint : Int} {marker : Option VersionMarker}

/-- Two ledgers that differ in what was stored at most. -/
structure Agrees (l l' : CommitLedger) : Prop where
  history : l.history = l'.history
  point : l.point = l'.point

theorem Agrees.refl (l : CommitLedger) : l.Agrees l := ⟨rfl, rfl⟩

theorem Agrees.trans {l'' : CommitLedger} (h : l.Agrees l') (h' : l'.Agrees l'') : l.Agrees l'' :=
  ⟨h.history.trans h'.history, h.point.trans h'.point⟩

/-- What was stored does not matter to a refresh. -/
theorem Agrees.refresh (h : l.Agrees l') (now checkpoint : Int) (marker : Option VersionMarker) :
    (l.refresh now checkpoint marker).1.Agrees (l'.refresh now checkpoint marker).1 ∧
      (l.refresh now checkpoint marker).2 = (l'.refresh now checkpoint marker).2 := by
  obtain ⟨history, point, stored⟩ := l
  obtain ⟨rfl, rfl⟩ : history = l'.history ∧ point = l'.point := ⟨h.history, h.point⟩
  have hadvance : ∀ m,
      (CommitLedger.sample ⟨l'.history, l'.point, stored⟩ now checkpoint).1.advance? m =
        (l'.sample now checkpoint).1.advance? m := fun _ => rfl
  rw [CommitLedger.refresh, CommitLedger.refresh, observe, observe, funext hadvance]
  split <;> exact ⟨⟨rfl, rfl⟩, rfl⟩

theorem agrees_flush {σ ε : Type} (l : CommitLedger) (force : Bool) (store : σ)
    (save : σ → CommitPoint → σ × Except ε Unit) : (l.flush force store save).1.Agrees l :=
  ⟨l.history_flush force store save, l.point_flush force store save⟩

/-- A refresh takes in a sample that is no older than the newest, and that is the newest from then
on. -/
theorem sample_of_newest_le (h : ∀ r ∈ l.history.newest?, r.timestamp ≤ now) :
    (l.sample now checkpoint).2 = true := by
  rw [sample, CheckpointHistory.add_of_accepts ((l.history.accepts_iff now).mpr h)]

theorem history_refresh (l : CommitLedger) (now checkpoint : Int) (marker : Option VersionMarker) :
    (l.refresh now checkpoint marker).1.history = (l.history.add now checkpoint).1 := by
  rw [refresh]
  rcases (l.sample now checkpoint).1.observe_cases marker with ⟨_, _, -, -, heq⟩ | ⟨-, heq⟩
  · rw [heq]
    rfl
  · rw [heq]
    rfl

theorem newest_refresh_le (h : ∀ r ∈ l.history.newest?, r.timestamp ≤ now) :
    ∀ r ∈ (l.refresh now checkpoint marker).1.history.newest?, r.timestamp ≤ now := by
  intro r hr
  rw [history_refresh, CheckpointHistory.add_of_accepts ((l.history.accepts_iff now).mpr h)] at hr
  -- trimming leaves the sample itself to the last
  obtain ⟨older, hsplit⟩ := l.history.trim_suffix now (l.history.samples ++ [⟨now, checkpoint⟩])
  rcases List.eq_nil_or_concat'
    (l.history.trim now (l.history.samples ++ [⟨now, checkpoint⟩])) with hnil | ⟨front, last, heq⟩
  · rw [CheckpointHistory.newest?, hnil] at hr
    cases hr
  · rw [CheckpointHistory.newest?, heq, List.getLast?_concat] at hr
    obtain rfl := Option.some.inj hr
    rw [heq, ← List.append_assoc] at hsplit
    obtain rfl := List.singleton_inj.mp (List.append_inj' hsplit rfl).2
    exact Int.le_refl now

end CommitLedger

/-! ### Ticks -/

/-- What a refresh of a shard does in its turn. -/
inductive TickEvent where
  | begin
  | readCheckpoint (checkpoint : Int)
  | readClock (clock : Int)
  | readMarker (marker : Except StorageFault (Option VersionMarker))
  /-- Its turn is over.  If it had a sample to enter, it is told whether that was taken in. -/
  | finish (accepted : Option Bool)

/-- A refresh that has had its turn: the number of its activity, and what it has read. -/
structure Tick where
  number : Nat
  checkpoint : Int
  clock : Int
  marker : Except StorageFault (Option VersionMarker)

namespace Tick

/-- All that a refresh does in its turn.  Its sample is taken in if the marker could be read. -/
def events (t : Tick) : List (Nat × TickEvent) :=
  [.begin, .readCheckpoint t.checkpoint, .readClock t.clock, .readMarker t.marker,
    .finish (t.marker.toOption.map fun _ => true)].map (t.number, ·)

/-- What a refresh enters into the ledger; nothing if the marker could not be read. -/
def entry? (t : Tick) : Option RefreshTick :=
  t.marker.toOption.map fun marker => ⟨t.clock, t.checkpoint, marker⟩

/-- What a refresh answers that finds a ledger when its turn comes. -/
def answer (t : Tick) (l : CommitLedger) : Except StorageFault Bool :=
  match t.marker with
  | .error fault => .error fault
  | .ok marker => .ok (l.refresh t.clock t.checkpoint marker).2

end Tick

/-- The ledger after some ticks, one after another. -/
def CommitLedger.afterTicks (l : CommitLedger) (ticks : List Tick) : CommitLedger :=
  l.refreshAll (ticks.filterMap Tick.entry?)

/-- What has become of a refresh on demand, by the ticks so far.  It has not had its turn; or it was
refused without one, and answers that nothing changed; or it has had its turn once, and answers what
it would have answered after the ticks before its own. -/
def Tick.Accounts (l : CommitLedger) (ticks : List Tick) (number : Nat) : RefreshPhase → Prop
  | .done result =>
    (result = .ok false ∧ ∀ t ∈ ticks, t.number ≠ number) ∨
      ∃ before t after, ticks = before ++ t :: after ∧ t.number = number ∧
        (∀ u ∈ before ++ after, u.number ≠ number) ∧ result = t.answer (l.afterTicks before)
  | _ => ∀ t ∈ ticks, t.number ≠ number

namespace Tick

variable {l : CommitLedger} {ticks : List Tick} {t : Tick} {number : Nat} {phase : RefreshPhase}

theorem forall_concat {P : Tick → Prop} (h : ∀ u ∈ ticks, P u) (ht : P t) :
    ∀ u ∈ ticks ++ [t], P u := by
  intro u hu
  rcases List.mem_append.mp hu with hold | hnew
  · exact h u hold
  · exact List.mem_singleton.mp hnew ▸ ht

/-- The tick of another one changes nothing. -/
theorem Accounts.concat (h : Accounts l ticks number phase) (ht : t.number ≠ number) :
    Accounts l (ticks ++ [t]) number phase := by
  cases phase with
  | done result =>
      rcases h with ⟨hresult, hnone⟩ | ⟨before, u, after, rfl, hu, hothers, hresult⟩
      · exact .inl ⟨hresult, forall_concat hnone ht⟩
      · refine .inr ⟨before, u, after ++ [t], by simp, hu, ?_, hresult⟩
        rw [← List.append_assoc]
        exact forall_concat hothers ht
  | _ => exact forall_concat h ht

/-- A refresh that makes a step has not had its turn to the end. -/
theorem Accounts.of_next? {s s' : HostedShard} {reading : Reading} {phase' : RefreshPhase}
    (h : Accounts l ticks number phase) (hnext : phase.next? s reading = some (s', phase')) :
    ∀ t ∈ ticks, t.number ≠ number := by
  cases phase with
  | done => cases hnext
  | _ => exact h

/-- It still has not, or it was refused. -/
theorem Accounts.of_none (h : ∀ t ∈ ticks, t.number ≠ number)
    (hdone : ∀ result, phase = .done result → result = .ok false) :
    Accounts l ticks number phase := by
  cases phase with
  | done result => exact .inl ⟨hdone result rfl, h⟩
  | _ => exact h

/-- Its turn has just ended. -/
theorem Accounts.of_last (h : ∀ t ∈ ticks, t.number ≠ number) (ht : t.number = number) :
    Accounts l (ticks ++ [t]) number (.done (t.answer (l.afterTicks ticks))) :=
  .inr ⟨ticks, t, [], rfl, ht, by rwa [List.append_nil], rfl⟩

end Tick

namespace RefreshPhase

/-- Whether it is the turn of a refresh. -/
def hasTurn : RefreshPhase → Bool
  | .sampling | .timing _ | .marking .. | .entering .. => true
  | .arriving | .queued | .done _ => false

/-- What a refresh has done in its turn so far. -/
def soFar : RefreshPhase → List TickEvent
  | .sampling => [.begin]
  | .timing checkpoint => [.begin, .readCheckpoint checkpoint]
  | .marking checkpoint clock => [.begin, .readCheckpoint checkpoint, .readClock clock]
  | .entering checkpoint clock marker =>
    [.begin, .readCheckpoint checkpoint, .readClock clock, .readMarker marker]
  | .arriving | .queued | .done _ => []

/-- What the clock has shown a refresh. -/
def clock? : RefreshPhase → Option Int
  | .marking _ clock | .entering _ clock _ => some clock
  | _ => none

/-- What the next step of a refresh of a shard does. -/
def event? (s : HostedShard) (reading : Reading) : RefreshPhase → Option TickEvent
  | .queued => some .begin
  | .sampling => some (.readCheckpoint reading.checkpoint)
  | .timing _ => some (.readClock reading.clock)
  | .marking .. => some (.readMarker reading.marker)
  | .entering checkpoint clock marker =>
    some (.finish (marker.toOption.map fun _ => (s.ledger.sample clock checkpoint).2))
  | .arriving | .done _ => none

end RefreshPhase

/-- The refresh of the shard `k` that an activity is carrying out, if it is its turn. -/
def Activity.turn? (k : Nat) (a : Activity) : Option RefreshPhase :=
  (a.refresh? k).filter RefreshPhase.hasTurn

namespace Activity

variable {a : Activity} {k : Nat} {phase phase' : RefreshPhase}

theorem turn?_of_refresh? (h : a.refresh? k = some phase) :
    a.turn? k = if phase.hasTurn then some phase else none := by
  rw [turn?, h, Option.filter_some]

theorem turn?_of_none (h : a.refresh? k = none) : a.turn? k = none := by
  rw [turn?, h]
  rfl

/-- A refresh after a step is the refresh of the activity after it, until it has ended. -/
theorem turn?_refreshed (h : a.refresh? k = some phase) :
    (a.refreshed phase').turn? k = if phase'.hasTurn then some phase' else none := by
  unfold refresh? at h
  split at h
  · obtain ⟨hk, -⟩ := Option.ite_none_right_eq_some.mp h
    cases phase' with
    | done result =>
        cases result <;> rfl
    | _ => exact turn?_of_refresh? (if_pos hk)
  · obtain ⟨hk, -⟩ := Option.ite_none_right_eq_some.mp h
    exact turn?_of_refresh? (if_pos hk)
  · cases h

theorem turn?_of_isRequest (h : a.isRequest = true) (k : Nat) : a.turn? k = none := by
  unfold isRequest at h
  split at h
  all_goals first | cases h | skip
  all_goals unfold turn? refresh?; simp [RefreshPhase.hasTurn]

end Activity

namespace HostedShard

/-- A shard later on, after anything but a refresh. -/
structure Unrefreshed (s s' : HostedShard) : Prop where
  ledger : s'.ledger.Agrees s.ledger
  isRefreshing : s'.isRefreshing = s.isRefreshing

variable {s s' : HostedShard}

theorem Unrefreshed.refl (s : HostedShard) : s.Unrefreshed s := ⟨.refl _, rfl⟩

theorem unrefreshed_flush (s : HostedShard) (force : Bool) (n : Node) :
    s.Unrefreshed { s with ledger := (s.ledger.flush force n (Node.save s.record)).1 } :=
  ⟨s.ledger.agrees_flush .., rfl⟩

theorem unrefreshed_afterWrite (s : HostedShard) (operation : DocumentChange.Operation)
    (result : CallResult WriteResponse) : s.Unrefreshed (s.afterWrite operation result).1 := by
  rw [afterWrite]
  split
  · cases operation <;> exact ⟨.refl _, rfl⟩
  · split <;> exact ⟨.refl _, rfl⟩

end HostedShard

namespace Node

variable {n m p : Node} {number k i : Nat} {a b : Activity} {s s' : HostedShard}
  {l : CommitLedger} {ticks : List Tick} {t : Tick} {rest log log' : List (Nat × TickEvent)}
  {phase phase' : RefreshPhase}

/-! ### Courses -/

/-- Something happens at a node that is no step of an activity. -/
inductive Outside (n : Node) : Node → Prop where
  /-- A task that waits to refresh a shard again does so although it was cancelled. -/
  | wake {number shard : Nat} {interval : Duration} {ticket : TaskTicket} {ticker : Ticker}
      (ticker' : Ticker)
      (h : n.activities[number]? = some (.tending shard interval ticket (.waiting ticker))) :
      Outside n (n.set number (.tending shard interval ticket (.refreshing ticker' .arriving)))
  | openShard (plan : OpeningPlan) (token : Token) :
      Outside n (n.begin (.opening plan token .arriving)).1
  | closeShard (id : ShardId) : Outside n (n.closeShard id).1
  | flush (shard : Nat) (force : Bool) : Outside n (n.flush shard force).1
  | fail (shard : Nat) (reason : String) :
      Outside n { n with roster := n.roster.modify shard fun s => s.fail reason }
  | close (shard : Nat) : Outside n { n with roster := n.roster.modify shard HostedShard.close }
  | around {m : Node} (h : n.Around m) : Outside n m

/-- What a step of a refresh tells. -/
def told (number : Nat) (phase : RefreshPhase) (s : HostedShard) (reading : Reading) :
    List (Nat × TickEvent) :=
  ((phase.event? s reading).map (number, ·)).toList

/-- What the next step of an activity tells of the refreshes of the shard `k`. -/
def tickOf (n : Node) (k number : Nat) : List (Nat × TickEvent) :=
  (((n.activities[number]?.bind (Activity.refresh? k)).bind fun phase =>
    n.roster.shards[k]?.bind fun s => phase.event? s (n.reading s)).map (number, ·)).toList

/-- A step of a course, and what it tells of the refreshes of the shard `k`. -/
inductive TickStep (n : Node) (k : Nat) : List (Nat × TickEvent) → Node → Prop where
  | act {number : Nat} {m : Node} (h : n.move? number = some m) :
      TickStep n k (n.tickOf k number) m
  | outside {m : Node} (h : n.Outside m) : TickStep n k [] m

/-- Any number of steps, under a clock that never goes back. -/
inductive TickCourse (n : Node) (k : Nat) : List (Nat × TickEvent) → Node → Prop where
  | refl : TickCourse n k [] n
  | tail {log log' : List (Nat × TickEvent)} {m p : Node} (h : TickCourse n k log m)
      (hstep : m.TickStep k log' p) (hclock : m.wall ≤ p.wall) : TickCourse n k (log ++ log') p

/-- Whatever may happen around a shard is such a step. -/
theorem Use.exists_tickStep {told : List ShardEvent} (h : n.Use k told m) :
    ∃ log, n.TickStep k log m := by
  cases h with
  | act _ hmove => exact ⟨_, .act hmove⟩
  | wake ticker' h => exact ⟨_, .outside (.wake ticker' h)⟩
  | openShard plan token => exact ⟨_, .outside (.openShard plan token)⟩
  | closeShard id => exact ⟨_, .outside (.closeShard id)⟩
  | flush shard force => exact ⟨_, .outside (.flush shard force)⟩
  | fail shard reason => exact ⟨_, .outside (.fail shard reason)⟩
  | close shard => exact ⟨_, .outside (.close shard)⟩
  | around h => exact ⟨_, .outside (.around h)⟩

theorem tickOf_of_refresh? (ha : n.activities[number]? = some a)
    (hphase : a.refresh? k = some phase) (hs : n.roster.shards[k]? = some s) :
    n.tickOf k number = told number phase s (n.reading s) := by
  rw [tickOf, ha, Option.bind_some, hphase, Option.bind_some, hs, Option.bind_some, told]

theorem tickOf_of_none (ha : n.activities[number]? = some a) (hphase : a.refresh? k = none) :
    n.tickOf k number = [] := by
  rw [tickOf, ha, Option.bind_some, hphase]
  rfl

/-! ### What a step does to the others -/

/-- The refresh of the shard `k` that the activity of a number is carrying out, if it has its
turn. -/
def turn? (n : Node) (k i : Nat) : Option RefreshPhase := n.activities[i]?.bind (Activity.turn? k)

theorem turn?_of_getElem? (ha : n.activities[i]? = some a) : n.turn? k i = a.turn? k := by
  rw [turn?, ha, Option.bind_some]

theorem turn?_of_append {late : List Activity} (hlate : ∀ a ∈ late, a.turn? k = none)
    (h : m.activities[i]? = (n.activities ++ late)[i]?) : m.turn? k i = n.turn? k i := by
  rw [turn?, turn?, h]
  rcases Nat.lt_or_ge i n.activities.length with hlt | hge
  · rw [List.getElem?_append_left hlt]
  · rw [List.getElem?_append_right hge, List.getElem?_eq_none hge]
    cases hnew : late[i - n.activities.length]? with
    | none => rfl
    | some a => exact hlate a (List.mem_of_getElem? hnew)

/-- No activity takes or gives back the turn of another one. -/
theorem Acts.turn?_other (h : n.Acts number a b m) (ha : n.activities[number]? = some a)
    (hi : i ≠ number) : m.turn? k i = n.turn? k i := by
  obtain ⟨late, heq, hlate⟩ := h.exists_late ha
  have hfresh : ∀ c ∈ late, c.turn? k = none := by
    intro c hc
    obtain ⟨shard, interval, ticket, rfl⟩ := hlate c hc
    rfl
  exact turn?_of_append hfresh (by rw [heq, List.getElem?_set_ne hi.symm])

/-- An activity that is not refreshing the shard does not come to its turn in a step. -/
theorem Acts.turn?_own (h : n.Acts number a b m) (hphase : a.refresh? k = none) :
    b.turn? k = none := by
  cases h with
  | @loop shard _ _ _ _ _ hturns =>
      cases hturns with
      | wake =>
          by_cases hk : shard = k <;> simp [Activity.turn?, Activity.refresh?, hk,
            RefreshPhase.hasTurn]
      | _ => rfl
  | @loopRefresh shard _ _ _ _ phase' =>
      have hk : shard ≠ k := by simpa [Activity.refresh?] using hphase
      cases phase' with
      | done result => cases result <;> rfl
      | _ => exact Activity.turn?_of_none (if_neg hk)
  | @refresh shard =>
      have hk : shard ≠ k := by simpa [Activity.refresh?] using hphase
      exact Activity.turn?_of_none (if_neg hk)
  | _ => rfl

theorem Effect.unrefreshed (h : n.Effect k a b s s') (hphase : a.refresh? k = Option.none) :
    s.Unrefreshed s' := by
  cases h with
  | none => exact .refl s
  | hear => exact ⟨.refl _, rfl⟩
  | refresh ha =>
      rw [hphase] at ha
      cases ha
  | flush => exact s.unrefreshed_flush false n
  | write => exact s.unrefreshed_afterWrite ..
  | report => exact ⟨.refl _, rfl⟩

theorem exists_unrefreshed_modify {shard : Nat} {f : HostedShard → HostedShard}
    (hs : n.roster.shards[k]? = some s) (h : s.Unrefreshed (f s)) :
    ∃ s', (n.roster.modify shard f).shards[k]? = some s' ∧ s.Unrefreshed s' := by
  show ∃ s', (n.roster.shards.modify shard f)[k]? = some s' ∧ _
  rw [List.getElem?_modify, hs]
  by_cases hshard : shard = k
  · simpa [hshard] using h
  · simpa [hshard] using HostedShard.Unrefreshed.refl s

/-- Whatever happens outside leaves the shard, as far as refreshes go. -/
theorem Outside.unrefreshed (h : n.Outside m) (hs : n.roster.shards[k]? = some s) :
    ∃ s', m.roster.shards[k]? = some s' ∧ s.Unrefreshed s' := by
  cases h with
  | wake => exact ⟨s, hs, .refl s⟩
  | openShard => exact ⟨s, hs, .refl s⟩
  | closeShard id =>
      refine ⟨_, shards_closeShard hs id, ?_⟩
      split
      · exact ⟨s.ledger.agrees_flush .., rfl⟩
      · exact .refl s
  | flush shard force =>
      refine ⟨_, shards_flush hs shard force, ?_⟩
      split
      · exact s.unrefreshed_flush force n
      · exact .refl s
  | fail shard reason => exact exists_unrefreshed_modify hs ⟨.refl _, rfl⟩
  | close shard => exact exists_unrefreshed_modify hs ⟨.refl _, rfl⟩
  | around h => exact ⟨s, by rw [h.roster]; exact hs, .refl s⟩

/-- Whatever happens outside changes no activity, but for a task that wakes, and what begins then is
not a refresh that has looked at its shard. -/
theorem Outside.activities (h : n.Outside m) :
    (∃ number shard interval ticket ticker ticker',
      n.activities[number]? = some (.tending shard interval ticket (.waiting ticker)) ∧
      m.activities = n.activities.set number
        (.tending shard interval ticket (.refreshing ticker' .arriving))) ∨
      ∃ late, m.activities = n.activities ++ late ∧
        ∀ a ∈ late, a.isRequest = true ∨ ∃ plan token, a = .opening plan token .arriving := by
  have hsame : m.activities = n.activities → ∃ late, m.activities = n.activities ++ late ∧
      ∀ a ∈ late, a.isRequest = true ∨ ∃ plan token, a = .opening plan token .arriving :=
    fun heq => ⟨[], by rw [heq, List.append_nil], fun a ha => absurd ha List.not_mem_nil⟩
  cases h with
  | wake ticker' h => exact .inl ⟨_, _, _, _, _, ticker', h, rfl⟩
  | openShard plan token =>
      exact .inr ⟨_, rfl, fun a ha => .inr ⟨plan, token, List.mem_singleton.mp ha⟩⟩
  | closeShard id => exact .inr (hsame (n.activities_closeShard id))
  | flush shard force => exact .inr (hsame (n.activities_flush shard force))
  | fail => exact .inr (hsame rfl)
  | close => exact .inr (hsame rfl)
  | around h =>
      obtain ⟨requests, heq, hrequests⟩ := h.activities
      exact .inr ⟨requests, heq, fun a ha => .inl (hrequests a ha)⟩

theorem Outside.turn? (h : n.Outside m) (k i : Nat) : m.turn? k i = n.turn? k i := by
  rcases h.activities with ⟨number, shard, interval, ticket, ticker, ticker', ha, heq⟩ |
    ⟨late, heq, hlate⟩
  · by_cases hi : i = number
    · subst hi
      have hm : m.activities[i]? =
          some (.tending shard interval ticket (.refreshing ticker' .arriving)) := by
        rw [heq, List.getElem?_set_self (List.getElem?_eq_some_iff.mp ha).1]
      have hacts : n.Acts i (.tending shard interval ticket (.waiting ticker)) _ _ :=
        acts_wake ticker'
      rw [turn?_of_getElem? ha, turn?_of_getElem? hm]
      exact hacts.turn?_own rfl
    · rw [Node.turn?, Node.turn?, heq, List.getElem?_set_ne (Ne.symm hi)]
  · have hnew : ∀ a ∈ late, a.turn? k = none := by
      intro a ha
      rcases hlate a ha with hrequest | ⟨plan, token, rfl⟩
      · exact Activity.turn?_of_isRequest hrequest k
      · rfl
    exact turn?_of_append hnew (by rw [heq])

end Node

end ShardKeeper
