import ShardKeeper.Node.Activity
import ShardKeeper.Proofs.Node.Aside

/-!
# What an activity does in a step

An activity that can act has one next step, and `Node.Acts` lists what that step
can be, one case for each thing that an activity does to the shards of its node
and to what is stored.  Whatever is proved about the steps of activities, and
has to do with shards, is read off this list.

## Main definitions

* `Node.GoesOn` — an activity goes on, and the shards stay as they are.
* `LoopPhase.Turns`, `OpeningPhase.Turns` — how a refreshing task and an opening go on by
  themselves.
* `Node.Acts` — what the next step of an activity does.

## Main results

* `Node.acts_of_move?` — the list is complete.
* `Node.Acts.own`, `Node.Acts.other` — an activity changes itself and no other one.
* `Node.Acts.stays` — an activity that has ended stays as it is.
-/

namespace ShardKeeper

/-- How a task that refreshes a shard again and again goes on while it does not act on the shard. -/
inductive LoopPhase.Turns : LoopPhase → LoopPhase → Prop where
  | begin (ticker : Ticker) : Turns .fresh (.waiting ticker)
  | refuse : Turns .fresh .ended
  | stop (ticker : Ticker) : Turns (.waiting ticker) .ended
  | wake (ticker ticker' : Ticker) : Turns (.waiting ticker) (.refreshing ticker' .arriving)

/-- How an opening goes on before it takes the shard up. -/
inductive OpeningPhase.Turns (n : Node) (plan : OpeningPlan) : OpeningPhase → OpeningPhase → Prop
    where
  | reject (e : ShardError) : Turns n plan .arriving (.done (.error e))
  | draft {token : Token} {draft : HostedShard} {condition : CatalogCondition} (wait : CatalogWait)
      (next : Instant) (h : plan.draft token n.load = .ok (draft, condition)) :
      Turns n plan .arriving (.looking draft wait next)
  | again (draft : HostedShard) (wait : CatalogWait) (next next' : Instant) :
      Turns n plan (.looking draft wait next) (.looking draft wait next')
  | met (draft : HostedShard) (wait : CatalogWait) (next : Instant) :
      Turns n plan (.looking draft wait next) (.registering draft)
  | giveUp (draft : HostedShard) (wait : CatalogWait) (next : Instant) (e : ShardError) :
      Turns n plan (.looking draft wait next) (.done (.error e))

theorem OpeningPlan.turns_look (n : Node) (plan : OpeningPlan) (draft : HostedShard)
    (wait : CatalogWait) (next now : Instant) (cancelled : Bool) (catalog : Option Catalog) :
    OpeningPhase.Turns n plan (.looking draft wait next)
      (look draft wait now cancelled catalog) := by
  unfold look
  split
  · exact .met draft wait next
  · exact .giveUp draft wait next _
  · exact .giveUp draft wait next _
  · exact .again draft wait next _

/-- Whether an activity is an opening or a refresh that has ended. -/
def Activity.hasEnded : Activity → Bool
  | .opening _ _ (.done _) | .refreshing _ (.done _) => true
  | _ => false

namespace Node

/-- An activity goes on as `a`, and the shards and all that is stored stay as they are. -/
structure GoesOn (n : Node) (number : Nat) (a : Activity) (m : Node) : Prop where
  roster : m.roster = n.roster
  files : m.files = n.files
  memory : m.memory = n.memory
  activities : m.activities = n.activities.set number a

/-- An opening ends as `a`: it leaves the roster `roster` behind, and the activities `late`
begin. -/
structure TakesUp (n : Node) (number : Nat) (a : Activity) (roster : Roster) (late : List Activity)
    (m : Node) : Prop where
  roster : m.roster = roster
  files : m.files = n.files
  memory : m.memory = n.memory
  activities : m.activities = (n.activities ++ late).set number a

/-- What a listener is about to hear, while it listens. -/
def receipt? (n : Node) (channel : Nat) (ticket : TaskTicket) (hasEnded : Bool) :
    Option (Broadcast.Receipt HealthEvent) :=
  if hasEnded || n.group.isCancelled ticket.token then none
  else n.channels[channel]?.bind fun c => c.receive.map (·.1)

/-- What the next step of an activity does, which is another one after it. -/
inductive Acts (n : Node) (number : Nat) : Activity → Activity → Node → Prop where
  | follow {path : Path} {interval : Duration} {ticket : TaskTicket} {phase phase' : FileSync}
      {m : Node} (h : n.GoesOn number (.following path interval ticket phase') m) :
      Acts n number (.following path interval ticket phase)
        (.following path interval ticket phase') m
  /-- A reclaim may change files. -/
  | reclaim {saga : Nat} {ticket : TaskTicket} {m : Node} (hroster : m.roster = n.roster)
      (hactivities : m.activities = n.activities) :
      Acts n number (.reclaiming saga ticket) (.reclaiming saga ticket) m
  | deafen {channel : Nat} {ticket : TaskTicket} {hasEnded : Bool} {m : Node}
      (h : n.GoesOn number (.listening channel ticket true) m)
      (hreceipt : ∀ receipt, n.receipt? channel ticket hasEnded = some receipt →
        receipt = .closed) :
      Acts n number (.listening channel ticket hasEnded) (.listening channel ticket true) m
  | hear {channel : Nat} {ticket : TaskTicket} {hasEnded : Bool} {m : Node}
      (receipt : Broadcast.Receipt HealthEvent) (hroster : m.roster = n.roster.hear receipt)
      (hfiles : m.files = n.files) (hmemory : m.memory = n.memory)
      (hactivities : m.activities = n.activities)
      (hreceipt : n.receipt? channel ticket hasEnded = some receipt) :
      Acts n number (.listening channel ticket hasEnded) (.listening channel ticket hasEnded) m
  | loop {shard : Nat} {interval : Duration} {ticket : TaskTicket} {phase phase' : LoopPhase}
      {m : Node} (hphase : phase.Turns phase')
      (h : n.GoesOn number (.tending shard interval ticket phase') m) :
      Acts n number (.tending shard interval ticket phase) (.tending shard interval ticket phase') m
  | loopRefresh {shard : Nat} {interval : Duration} {ticket : TaskTicket} {ticker : Ticker}
      {refresh refresh' : RefreshPhase} {s s' : HostedShard}
      (hs : n.roster.shards[shard]? = some s)
      (hnext : refresh.next? s (n.reading s) = some (s', refresh')) :
      Acts n number (.tending shard interval ticket (.refreshing ticker refresh))
        (.tending shard interval ticket (.afterRefresh ticker refresh'))
        ((n.setShard shard s').set number
          (.tending shard interval ticket (.afterRefresh ticker refresh')))
  | loopFlush {shard : Nat} {interval : Duration} {ticket : TaskTicket} {ticker : Ticker} :
      Acts n number (.tending shard interval ticket (.flushing ticker))
        (.tending shard interval ticket (.waiting ticker))
        ((n.flush shard false).1.set number (.tending shard interval ticket (.waiting ticker)))
  | opening {plan : OpeningPlan} {token token' : Token} {phase phase' : OpeningPhase} {m : Node}
      (hphase : OpeningPhase.Turns n plan phase phase')
      (h : n.GoesOn number (.opening plan token' phase') m) :
      Acts n number (.opening plan token phase) (.opening plan token' phase') m
  /-- The shard is opened and not to be hosted. -/
  | apart {plan : OpeningPlan} {token : Token} {draft : HostedShard} {m : Node}
      (hplan : plan.refreshing = none)
      (h : n.TakesUp number (.opening plan token (.done (.ok (n.roster.add draft).2)))
        (n.roster.add draft).1 [] m) :
      Acts n number (.opening plan token (.registering draft))
        (.opening plan token (.done (.ok (n.roster.add draft).2))) m
  /-- The same shard has been hosted in the meantime. -/
  | turnDown {plan : OpeningPlan} {token : Token} {draft : HostedShard} {m : Node}
      (h : n.TakesUp number (.opening plan token (.done (.error (.alreadyHosted plan.id))))
        ((n.roster.add draft).1.modify (n.roster.add draft).2 HostedShard.close) [] m) :
      Acts n number (.opening plan token (.registering draft))
        (.opening plan token (.done (.error (.alreadyHosted plan.id)))) m
  | host {plan : OpeningPlan} {token : Token} {draft : HostedShard} {roster : Roster}
      {interval : Duration} {ticket : TaskTicket} {m : Node}
      (hroster : (n.roster.add draft).1.register? (n.roster.add draft).2 = some roster)
      (h : n.TakesUp number (.opening plan token (.done (.ok (n.roster.add draft).2))) roster
        [.tending (n.roster.add draft).2 interval ticket .fresh] m) :
      Acts n number (.opening plan token (.registering draft))
        (.opening plan token (.done (.ok (n.roster.add draft).2))) m
  | talk {shard : Nat} {operation : DocumentChange.Operation} {request : WriteRequest}
      {call call' : Call WriteResponse} {result : Option (Except ShardError Unit)} {m : Node}
      (h : n.GoesOn number (.writing shard operation request call' none) m)
      (hcall : ∀ r, call.phase ≠ .ended r) :
      Acts n number (.writing shard operation request call result)
        (.writing shard operation request call' none) m
  | write {shard : Nat} {operation : DocumentChange.Operation} {request : WriteRequest}
      {call : Call WriteResponse} {result : CallResult WriteResponse} {s : HostedShard}
      (hs : n.roster.shards[shard]? = some s) (hcall : call.phase = .ended result) :
      Acts n number (.writing shard operation request call none)
        (.writing shard operation request call (some (s.afterWrite operation result).2))
        ((n.setShard shard (s.afterWrite operation result).1).set number
          (.writing shard operation request call (some (s.afterWrite operation result).2)))
  | query {shard : Nat} {request : QueryRequest} {call call' : Call QueryResponse} {m : Node}
      (h : n.GoesOn number (.querying shard request call') m) :
      Acts n number (.querying shard request call) (.querying shard request call') m
  | refresh {shard : Nat} {phase phase' : RefreshPhase} {s s' : HostedShard}
      (hs : n.roster.shards[shard]? = some s)
      (hnext : phase.next? s (n.reading s) = some (s', phase')) :
      Acts n number (.refreshing shard phase) (.refreshing shard phase')
        ((n.setShard shard s').set number (.refreshing shard phase'))
  | report {shard : Nat} {phase phase' : ReportPhase} {s s' : HostedShard}
      (hs : n.roster.shards[shard]? = some s)
      (hnext : phase.next? s (n.wall * 1000000) (n.tableSize? s) = some (s', phase')) :
      Acts n number (.reporting shard phase) (.reporting shard phase')
        ((n.setShard shard s').set number (.reporting shard phase'))

variable {n m : Node} {number : Nat} {a b : Activity}

/-! ### Flushes -/

theorem exists_save (place : RecordPlace) (n : Node) (point : CommitPoint) :
    ∃ files memory, (save place n point).1 = { n with files, memory } := by
  cases place with
  | file path => exact ⟨_, n.memory, rfl⟩
  | memory =>
      rw [save]
      split <;> exact ⟨n.files, _, rfl⟩

/-- A flush changes the ledger of its shard and what is stored, and nothing else. -/
theorem exists_flush {shard : Nat} {s : HostedShard} (hs : n.roster.shards[shard]? = some s)
    (force : Bool) :
    ∃ files memory, (n.flush shard force).1 =
      { n with files, memory }.setShard shard (s.flush force n (save s.record)).1 := by
  unfold flush
  rw [hs]
  show ∃ files memory,
    (s.ledger.flush force n (save s.record)).2.1.setShard shard
      (s.flush force n (save s.record)).1 = _
  rcases s.ledger.store_flush force n (save s.record) with heq | ⟨point, heq⟩
  · rw [heq]
    exact ⟨n.files, n.memory, rfl⟩
  · obtain ⟨files, memory, hsave⟩ := exists_save s.record n point
    rw [heq, hsave]
    exact ⟨files, memory, rfl⟩

theorem flush_of_none {shard : Nat} (hs : n.roster.shards[shard]? = none) (force : Bool) :
    n.flush shard force = (n, .ok false) := by
  rw [flush, hs]

theorem activities_flush (n : Node) (shard : Nat) (force : Bool) :
    (n.flush shard force).1.activities = n.activities := by
  cases hs : n.roster.shards[shard]? with
  | none => rw [flush_of_none hs]
  | some s =>
      obtain ⟨files, memory, heq⟩ := exists_flush hs force
      rw [heq]
      rfl

/-! ### The list is complete -/

theorem acts_of_moveFollowing? {path : Path} {interval : Duration} {ticket : TaskTicket}
    {phase : FileSync} (h : n.moveFollowing? number path interval ticket phase = some m) :
    ∃ b, n.Acts number (.following path interval ticket phase) b m := by
  obtain ⟨⟨feed, phase'⟩, -, heq⟩ := Option.bind_eq_some_iff.mp h
  obtain rfl := Option.some.inj heq
  refine ⟨.following path interval ticket phase', .follow ?_⟩
  split <;> exact ⟨rfl, rfl, rfl, rfl⟩

theorem leaves_of_stepSaga? {saga : Nat} {s : Saga} {ticket : TaskTicket}
    (h : n.stepSaga? saga s ticket = some m) :
    m.roster = n.roster ∧ m.activities = n.activities := by
  unfold stepSaga? at h
  split at h
  · cases h
    exact ⟨rfl, rfl⟩
  · obtain ⟨⟨desk, effect⟩, -, heq⟩ := Option.bind_eq_some_iff.mp h
    cases effect <;> cases heq <;> exact ⟨rfl, rfl⟩

theorem acts_of_moveReclaiming? {saga : Nat} {ticket : TaskTicket}
    (h : n.moveReclaiming? saga ticket = some m) :
    ∃ b, n.Acts number (.reclaiming saga ticket) b m := by
  obtain ⟨s, -, hrest⟩ := Option.bind_eq_some_iff.mp h
  obtain ⟨r, hr, heq⟩ := Option.bind_eq_some_iff.mp hrest
  obtain ⟨hroster, hactivities⟩ := leaves_of_stepSaga? hr
  obtain rfl := Option.some.inj heq
  refine ⟨_, .reclaim ?_ ?_⟩
  · split <;> exact hroster
  · split <;> exact hactivities

theorem acts_of_moveTending? {shard : Nat} {interval : Duration} {ticket : TaskTicket}
    {phase : LoopPhase} (h : n.moveTending? number shard interval ticket phase = some m) :
    ∃ b, n.Acts number (.tending shard interval ticket phase) b m := by
  obtain ⟨s, hs, hrest⟩ := Option.bind_eq_some_iff.mp h
  cases phase with
  | fresh =>
      obtain rfl := Option.some.inj hrest
      cases hzero : interval.isZero with
      | true => exact ⟨_, .loop .refuse ⟨rfl, rfl, rfl, rfl⟩⟩
      | false => exact ⟨_, .loop (.begin (.start interval n.clock)) ⟨rfl, rfl, rfl, rfl⟩⟩
  | waiting ticker =>
      obtain ⟨phase', hwake, heq⟩ := Option.bind_eq_some_iff.mp hrest
      unfold LoopPhase.wake? at hwake
      split at hwake
      · obtain rfl := Option.some.inj hwake
        obtain rfl := Option.some.inj heq
        exact ⟨_, .loop (.stop ticker) ⟨rfl, rfl, rfl, rfl⟩⟩
      · obtain ⟨-, hphase⟩ := Option.ite_none_right_eq_some.mp hwake
        obtain rfl := Option.some.inj hphase
        obtain rfl := Option.some.inj heq
        exact ⟨_, .loop (.wake ticker _) ⟨rfl, rfl, rfl, rfl⟩⟩
  | refreshing ticker refresh =>
      obtain ⟨⟨s', refresh'⟩, hnext, heq⟩ := Option.bind_eq_some_iff.mp hrest
      obtain rfl := Option.some.inj heq
      exact ⟨_, .loopRefresh hs hnext⟩
  | flushing ticker =>
      obtain rfl := Option.some.inj hrest
      exact ⟨_, .loopFlush⟩
  | ended => cases hrest

theorem acts_of_moveListening? {channel : Nat} {ticket : TaskTicket} {hasEnded : Bool}
    (h : n.moveListening? number channel ticket hasEnded = some m) :
    ∃ b, n.Acts number (.listening channel ticket hasEnded) b m := by
  obtain ⟨c, hc, hrest⟩ := Option.bind_eq_some_iff.mp h
  dsimp only at hrest
  split at hrest
  · cases hrest
  · rename_i hlistens
    split at hrest
    · rename_i hcancelled
      obtain rfl := Option.some.inj hrest
      exact ⟨_, .deafen ⟨rfl, rfl, rfl, rfl⟩ (by simp [receipt?, hcancelled])⟩
    · rename_i hwaits
      obtain ⟨⟨receipt, c'⟩, hreceive, heq⟩ := Option.bind_eq_some_iff.mp hrest
      have hreceipt : n.receipt? channel ticket hasEnded = some receipt := by
        simp [receipt?, hlistens, hwaits, hc, hreceive]
      dsimp only at heq
      split at heq
      · rename_i hclosed
        obtain rfl := Option.some.inj heq
        refine ⟨_, .deafen ⟨rfl, rfl, rfl, rfl⟩ fun r hr => ?_⟩
        exact (Option.some.inj (hr.symm.trans hreceipt)).trans hclosed
      · obtain rfl := Option.some.inj heq
        exact ⟨_, .hear receipt rfl rfl rfl rfl hreceipt⟩

theorem acts_beginOpening (n : Node) (number : Nat) (plan : OpeningPlan) (token : Token) :
    ∃ b, n.Acts number (.opening plan token .arriving) b (n.beginOpening number plan token) := by
  unfold beginOpening
  split
  · exact ⟨_, .opening (.reject _) ⟨rfl, rfl, rfl, rfl⟩⟩
  · cases plan.refreshing.isSome with
    | true =>
        simp only [if_true]
        split
        · exact ⟨_, .opening (.reject _) ⟨rfl, rfl, rfl, rfl⟩⟩
        · rename_i hdraft
          exact ⟨_, .opening (.draft _ _ hdraft) ⟨rfl, rfl, rfl, rfl⟩⟩
    | false =>
        simp only [Bool.false_eq_true, if_false]
        split
        · exact ⟨_, .opening (.reject _) ⟨rfl, rfl, rfl, rfl⟩⟩
        · rename_i hdraft
          exact ⟨_, .opening (.draft _ _ hdraft) ⟨rfl, rfl, rfl, rfl⟩⟩

theorem acts_takeUp (n : Node) (number : Nat) (plan : OpeningPlan) (token : Token)
    (draft : HostedShard) :
    ∃ b, n.Acts number (.opening plan token (.registering draft)) b
      (n.takeUp number plan token draft) := by
  rw [takeUp]
  dsimp only
  split
  · rename_i hplan
    exact ⟨_, .apart hplan ⟨rfl, rfl, rfl, by simp [set]⟩⟩
  · split
    · exact ⟨_, .turnDown ⟨rfl, rfl, rfl, by simp [set]⟩⟩
    · rename_i hroster
      exact ⟨_, .host hroster ⟨rfl, rfl, rfl, rfl⟩⟩

theorem acts_of_moveOpening? {plan : OpeningPlan} {token : Token} {phase : OpeningPhase}
    (h : n.moveOpening? number plan token phase = some m) :
    ∃ b, n.Acts number (.opening plan token phase) b m := by
  cases phase with
  | arriving =>
      obtain rfl := Option.some.inj h
      exact n.acts_beginOpening number plan token
  | looking draft wait next =>
      obtain ⟨-, heq⟩ := Option.ite_none_right_eq_some.mp h
      obtain rfl := Option.some.inj heq
      exact ⟨_, .opening (plan.turns_look n draft wait next ..) ⟨rfl, rfl, rfl, rfl⟩⟩
  | registering draft =>
      obtain rfl := Option.some.inj h
      exact n.acts_takeUp number plan token draft
  | done result => cases h

theorem acts_of_moveWriting? {shard : Nat} {operation : DocumentChange.Operation}
    {request : WriteRequest} {call : Call WriteResponse} {result : Option (Except ShardError Unit)}
    (h : n.moveWriting? number shard operation request call result = some m) :
    ∃ b, n.Acts number (.writing shard operation request call result) b m := by
  obtain ⟨s, hs, hrest⟩ := Option.bind_eq_some_iff.mp h
  dsimp only at hrest
  split at hrest
  · rename_i hsending
    obtain rfl := Option.some.inj hrest
    exact ⟨_, .talk ⟨rfl, rfl, rfl, rfl⟩ (by simp [hsending])⟩
  · rename_i hcall
    obtain rfl := Option.some.inj hrest
    exact ⟨_, .write hs hcall⟩
  · obtain ⟨call', hnext, heq⟩ := Option.bind_eq_some_iff.mp hrest
    obtain rfl := Option.some.inj heq
    refine ⟨_, .talk ⟨rfl, rfl, rfl, rfl⟩ fun r hended => ?_⟩
    rw [Call.next?, hended] at hnext
    cases hnext

theorem acts_of_moveQuerying? {shard : Nat} {request : QueryRequest} {call : Call QueryResponse}
    (h : n.moveQuerying? number shard request call = some m) :
    ∃ b, n.Acts number (.querying shard request call) b m := by
  obtain ⟨s, -, hrest⟩ := Option.bind_eq_some_iff.mp h
  split at hrest
  · obtain rfl := Option.some.inj hrest
    exact ⟨_, .query ⟨rfl, rfl, rfl, rfl⟩⟩
  · obtain ⟨call', -, heq⟩ := Option.bind_eq_some_iff.mp hrest
    obtain rfl := Option.some.inj heq
    exact ⟨_, .query ⟨rfl, rfl, rfl, rfl⟩⟩

theorem acts_of_moveRefreshing? {shard : Nat} {phase : RefreshPhase}
    (h : n.moveRefreshing? number shard phase = some m) :
    ∃ b, n.Acts number (.refreshing shard phase) b m := by
  obtain ⟨s, hs, hrest⟩ := Option.bind_eq_some_iff.mp h
  obtain ⟨⟨s', phase'⟩, hnext, heq⟩ := Option.bind_eq_some_iff.mp hrest
  obtain rfl := Option.some.inj heq
  exact ⟨_, .refresh hs hnext⟩

theorem acts_of_moveReporting? {shard : Nat} {phase : ReportPhase}
    (h : n.moveReporting? number shard phase = some m) :
    ∃ b, n.Acts number (.reporting shard phase) b m := by
  obtain ⟨s, hs, hrest⟩ := Option.bind_eq_some_iff.mp h
  obtain ⟨⟨s', phase'⟩, hnext, heq⟩ := Option.bind_eq_some_iff.mp hrest
  obtain rfl := Option.some.inj heq
  exact ⟨_, .report hs hnext⟩

/-- **What the next step of an activity does.** -/
theorem acts_of_move? (ha : n.activities[number]? = some a) (h : n.move? number = some m) :
    ∃ b, n.Acts number a b m := by
  obtain ⟨c, hc, hmove⟩ := Option.bind_eq_some_iff.mp h
  obtain rfl : a = c := Option.some.inj (ha.symm.trans hc)
  cases a with
  | following => exact acts_of_moveFollowing? hmove
  | reclaiming => exact acts_of_moveReclaiming? hmove
  | tending => exact acts_of_moveTending? hmove
  | listening => exact acts_of_moveListening? hmove
  | opening => exact acts_of_moveOpening? hmove
  | writing => exact acts_of_moveWriting? hmove
  | querying => exact acts_of_moveQuerying? hmove
  | refreshing => exact acts_of_moveRefreshing? hmove
  | reporting => exact acts_of_moveReporting? hmove

theorem exists_acts_of_move? (h : n.move? number = some m) :
    ∃ a b, n.activities[number]? = some a ∧ n.Acts number a b m := by
  obtain ⟨a, ha, -⟩ := Option.bind_eq_some_iff.mp h
  obtain ⟨b, hacts⟩ := acts_of_move? ha h
  exact ⟨a, b, ha, hacts⟩

/-! ### Other activities -/

namespace Acts

/-- What is under way after a step: the activity as it is then, all the others, and the tasks that
begin to refresh a shard. -/
theorem exists_late (h : n.Acts number a b m) (ha : n.activities[number]? = some a) :
    ∃ late, m.activities = (n.activities ++ late).set number b ∧
      ∀ c ∈ late, ∃ shard interval ticket, c = .tending shard interval ticket .fresh := by
  have hnone : ∀ b, m.activities = n.activities.set number b →
      ∃ late, m.activities = (n.activities ++ late).set number b ∧
        ∀ c ∈ late, ∃ shard interval ticket, c = .tending shard interval ticket .fresh :=
    fun b hb => ⟨[], by rw [hb, List.append_nil], fun c hc => absurd hc List.not_mem_nil⟩
  cases h with
  | follow h => exact hnone _ h.activities
  | reclaim _ hactivities => exact hnone _ (by rw [hactivities, set_eq_self ha])
  | deafen h => exact hnone _ h.activities
  | hear _ _ _ _ hactivities _ => exact hnone _ (by rw [hactivities, set_eq_self ha])
  | loop _ h => exact hnone _ h.activities
  | loopRefresh => exact hnone _ rfl
  | loopFlush => exact hnone _ (by rw [set, activities_flush])
  | opening _ h => exact hnone _ h.activities
  | apart _ h => exact ⟨[], h.activities, fun c hc => absurd hc List.not_mem_nil⟩
  | turnDown h => exact ⟨[], h.activities, fun c hc => absurd hc List.not_mem_nil⟩
  | host _ h => exact ⟨_, h.activities, fun c hc => ⟨_, _, _, List.mem_singleton.mp hc⟩⟩
  | talk h => exact hnone _ h.activities
  | write => exact hnone _ rfl
  | query h => exact hnone _ h.activities
  | refresh => exact hnone _ rfl
  | report => exact hnone _ rfl

/-- The activity itself after the step. -/
theorem own (h : n.Acts number a b m) (ha : n.activities[number]? = some a) :
    m.activities[number]? = some b := by
  obtain ⟨late, heq, -⟩ := h.exists_late ha
  have hlt := (List.getElem?_eq_some_iff.mp ha).1
  rw [heq, List.getElem?_set_self]
  rw [List.length_append]
  omega

/-- **No activity changes another one.** -/
theorem other (h : n.Acts number a b m) (ha : n.activities[number]? = some a) {i : Nat}
    (hi : i ≠ number) {c : Activity} (hc : n.activities[i]? = some c) :
    m.activities[i]? = some c := by
  obtain ⟨late, heq, -⟩ := h.exists_late ha
  rw [heq, List.getElem?_set_ne hi.symm,
    List.getElem?_append_left (List.getElem?_eq_some_iff.mp hc).1]
  exact hc

/-- An activity that has ended does not act. -/
theorem hasEnded (h : n.Acts number a b m) : a.hasEnded = false := by
  cases h with
  | opening hphase => cases hphase <;> rfl
  | @refresh _ phase _ _ _ _ hnext =>
      cases phase with
      | done => cases hnext
      | _ => rfl
  | _ => rfl

/-- **What has ended stays as it is.** -/
theorem stays (h : n.Acts number a b m) (ha : n.activities[number]? = some a) {i : Nat}
    {c : Activity} (hc : n.activities[i]? = some c) (hended : c.hasEnded = true) :
    m.activities[i]? = some c := by
  refine h.other ha ?_ hc
  rintro rfl
  obtain rfl := Option.some.inj (hc.symm.trans ha)
  rw [h.hasEnded] at hended
  cases hended

/-- What holds of every activity still does, if it holds of the activity after its step and of a
task that begins to refresh a shard. -/
theorem forall_activities (h : n.Acts number a b m) (ha : n.activities[number]? = some a)
    {P : Activity → Prop} (hall : ∀ c ∈ n.activities, P c) (hb : P b)
    (hfresh : ∀ shard interval ticket, P (.tending shard interval ticket .fresh)) :
    ∀ c ∈ m.activities, P c := by
  obtain ⟨late, heq, hlate⟩ := h.exists_late ha
  rw [heq]
  intro c hc
  rcases List.mem_or_eq_of_mem_set hc with hc | rfl
  · rcases List.mem_append.mp hc with hold | hnew
    · exact hall c hold
    · obtain ⟨shard, interval, ticket, rfl⟩ := hlate c hnew
      exact hfresh shard interval ticket
  · exact hb

end Acts

end Node

end ShardKeeper
