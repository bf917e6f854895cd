import ShardKeeper.Proofs.Broadcast
import ShardKeeper.Proofs.Node.Rest
import ShardKeeper.Proofs.Node.Startup
import ShardKeeper.Proofs.Node.Ticks

/-!
# Failed restarts and the shards they should fail

A failed restart of the engine is published on a channel of health events, and the
listener on that channel fails every hosted shard when it gets the event.  The
channel is bounded.  When the event is the oldest of a full channel and another one
is published, the listener never gets it: it is told that it missed something, takes
no notice of that, and the shards stay as they are.

This file shows that there is no other way to miss a failed restart, whatever else
happens at the node, and how many events it takes.

## Main definitions

* `Roster.FailedSince` — the shards hosted at an earlier moment, and still hosted, have failed.
* `HealthEntry` — what was published on a channel, and what its listener heard.
* `Node.HealthStep`, `Node.HealthCourse` — a course of a node, with what happens on one channel.
* `Node.Listens` — a listener and its channel.
* `Node.Hearing` — what a step means for these two.
* `Node.Overwritten` — an event was the oldest of a full channel when another one was published.
* `Node.Fate` — what has become of a failed restart.
* `Node.hasDrained` — whether a listener has nothing left to hear.

## Main results

* `Node.Listens.step` — a listener stays what it is, until it ends.
* `Node.Fate.step` — what a step makes of the fate of a failed restart.
* `Node.roster_of_hears` — a listener that is left to itself hears what is on its channel.
* `Node.failed_restart_heard_or_overwritten` — when a failed restart fails the hosted shards.
* `Node.failed_restart_missed` — a failed restart that fails no shard.
-/

namespace ShardKeeper

/-! ### Rosters later on -/

namespace Roster

variable {r r' : Roster} {number : Nat} {id : ShardId}

/-- A later roster, in which what has failed still has failed. -/
structure Follows (r r' : Roster) : Prop where
  grows : r.Grows r'
  failed : ∀ (number : Nat) (s : HostedShard) (reason : String), r.shards[number]? = some s →
    s.failure = some reason → ∃ s', r'.shards[number]? = some s' ∧ s'.failure = some reason

theorem Follows.refl (r : Roster) : r.Follows r :=
  ⟨.refl r, fun _ s _ hs hfailed => ⟨s, hs, hfailed⟩⟩

theorem Follows.trans {r'' : Roster} (h : r.Follows r') (h' : r'.Follows r'') : r.Follows r'' where
  grows := h.grows.trans h'.grows
  failed number s reason hs hfailed := by
    obtain ⟨s', hs', hfailed'⟩ := h.failed number s reason hs hfailed
    exact h'.failed number s' reason hs' hfailed'

/-- What was opened before, and is hosted later on, was hosted before. -/
theorem Grows.mem_hosted (h : r.Grows r') (hlt : number < r.shards.length)
    (hmem : (id, number) ∈ r'.hosted) : (id, number) ∈ r.hosted :=
  (h.hosted _ hmem).resolve_right (Nat.not_le_of_lt hlt)

/-- Every shard that was hosted in an earlier roster, and is hosted in a later one, has a reason for
its failure there. -/
def FailedSince (r r' : Roster) : Prop :=
  ∀ id number s, (id, number) ∈ r.hosted → r.shards[number]? = some s → (id, number) ∈ r'.hosted →
    ∃ s' reason, r'.shards[number]? = some s' ∧ s'.failure = some reason

theorem failedSince_failAll (h : r.Grows r') (reason : String) :
    r.FailedSince (r'.failAll reason) := by
  intro id number s _ hs hmem
  rw [(r'.useCourse_failAll reason).hosted_eq] at hmem
  have hnumber : number ∈ r'.hosted.map (·.2) := List.mem_map.mpr ⟨_, hmem, rfl⟩
  obtain ⟨s', hs', -⟩ := h.shards number s hs
  refine ⟨s'.fail reason, s'.failure.getD reason, ?_, s'.failure_fail reason⟩
  rw [shards_failAll, hs', Option.map_some, if_pos hnumber]

theorem FailedSince.follows {r'' : Roster} (h : r.FailedSince r') (hgrows : r.Grows r')
    (hfollows : r'.Follows r'') : r.FailedSince r'' := by
  intro id number s hmem hs hmem''
  obtain ⟨s₁, hs₁, -⟩ := hgrows.shards number s hs
  have hmem' : (id, number) ∈ r'.hosted :=
    hfollows.grows.mem_hosted (List.getElem?_eq_some_iff.mp hs₁).1 hmem''
  obtain ⟨s', reason, hs', hfailed⟩ := h id number s hmem hs hmem'
  obtain ⟨s'', hs'', hfailed'⟩ := hfollows.failed number s' reason hs' hfailed
  exact ⟨s'', reason, hs'', hfailed'⟩

/-- What the listener hears, one thing after the other. -/
def hearAll (r : Roster) (receipts : List (Broadcast.Receipt HealthEvent)) : Roster :=
  receipts.foldl hear r

/-- Nothing but a failed restart matters. -/
theorem hear_of_ne {receipt : Broadcast.Receipt HealthEvent}
    (h : ∀ role error, receipt ≠ .item (.restartFailed role error)) : r.hear receipt = r := by
  unfold hear
  split
  · rename_i role error
    exact absurd rfl (h role error)
  · rfl

theorem hearAll_of_ne {receipts : List (Broadcast.Receipt HealthEvent)}
    (h : ∀ role error, .item (.restartFailed role error) ∉ receipts) : r.hearAll receipts = r := by
  induction receipts with
  | nil => rfl
  | cons receipt receipts ih =>
      have hfirst : r.hear receipt = r := hear_of_ne fun role error heq =>
        h role error (heq ▸ List.mem_cons_self)
      rw [hearAll, List.foldl_cons, hfirst]
      exact ih fun role error hmem => h role error (List.mem_cons_of_mem _ hmem)

/-- What the latest of several events mean, of which only the first is a failed restart. -/
theorem hearAll_latest (r : Roster) (role error : String) {later : List HealthEvent}
    (h : ∀ role error, .restartFailed role error ∉ later) (capacity : Nat) :
    r.hearAll
        (((.restartFailed role error :: later).drop (later.length + 1 - capacity)).map .item) =
      if later.length < capacity then r.failAll (lossText role error) else r := by
  have hothers (q : Roster) {events : List HealthEvent} (hevents : ∀ e ∈ events, e ∈ later) :
      q.hearAll (events.map .item) = q := by
    refine hearAll_of_ne fun role error hmem => ?_
    obtain ⟨event, hevent, heq⟩ := List.mem_map.mp hmem
    obtain rfl := Broadcast.Receipt.item.inj heq
    exact h role error (hevents _ hevent)
  split
  · rename_i hroom
    rw [Nat.sub_eq_zero_of_le hroom, List.drop_zero]
    exact hothers (r.failAll (lossText role error)) fun _ hmem => hmem
  · rename_i hfull
    obtain ⟨dropped, hdropped⟩ := Nat.exists_eq_add_of_le (Nat.le_of_not_lt hfull)
    have hcount : later.length + 1 - capacity = dropped + 1 := by omega
    rw [hcount, List.drop_succ_cons]
    exact hothers r fun _ hmem => List.mem_of_mem_drop hmem

end Roster

/-- What happens on a channel of health events. -/
inductive HealthEntry where
  | published (event : HealthEvent)
  | heard (receipt : Broadcast.Receipt HealthEvent)

/-- The events that were published. -/
def HealthEntry.events (log : List HealthEntry) : List HealthEvent :=
  log.filterMap fun
    | .published event => some event
    | .heard _ => none

namespace Node

variable {n m p q : Node} {channel number k i : Nat} {capacity : Nat} {ticket : TaskTicket}
  {a b : Activity} {s : HostedShard} {event : HealthEvent} {log log' entries : List HealthEntry}
  {c c' : Broadcast HealthEvent} {receipt : Broadcast.Receipt HealthEvent}

/-! ### Courses -/

/-- The node after events were published on a channel. `Node.tell` does it on the newest one. -/
def publish (n : Node) (channel : Nat) (events : List HealthEvent) : Node :=
  { n with channels := n.channels.modify channel (·.sendAll events) }

/-- What a listener hears in its next step. -/
def heardBy (n : Node) (number : Nat) : List HealthEntry :=
  match n.activities[number]? with
  | some (.listening channel ticket hasEnded) =>
    ((n.receipt? channel ticket hasEnded).map .heard).toList
  | _ => []

/-- A step of a course, and what happens on a channel and to the listener of a number.  Nobody else
receives from the channel. -/
inductive HealthStep (n : Node) (channel number : Nat) : List HealthEntry → Node → Prop where
  | publish (event : HealthEvent) {c : Broadcast HealthEvent} (hc : n.channels[channel]? = some c)
      (hopen : c.isOpen = true) :
      HealthStep n channel number [.published event] (n.publish channel [event])
  /-- Nobody publishes on the channel any more. -/
  | hangUp : HealthStep n channel number []
      { n with channels := n.channels.modify channel Broadcast.hangUp }
  | listen {m : Node} (h : n.move? number = some m) :
      HealthStep n channel number (n.heardBy number) m
  | act {i : Nat} {m : Node} (h : n.move? i = some m) (hi : i ≠ number)
      (hchannel : m.channels[channel]? = n.channels[channel]?) : HealthStep n channel number [] m
  | outside {m : Node} (h : n.Outside m) (hchannel : m.channels[channel]? = n.channels[channel]?) :
      HealthStep n channel number [] m

/-- Any number of steps. -/
inductive HealthCourse (n : Node) (channel number : Nat) : List HealthEntry → Node → Prop where
  | refl : HealthCourse n channel number [] n
  | tail {log entries : List HealthEntry} {m p : Node} (h : HealthCourse n channel number log m)
      (hstep : m.HealthStep channel number entries p) :
      HealthCourse n channel number (log ++ entries) p

theorem HealthCourse.trans (h : n.HealthCourse channel number log m)
    (h' : m.HealthCourse channel number log' p) :
    n.HealthCourse channel number (log ++ log') p := by
  induction h' with
  | refl => rwa [List.append_nil]
  | tail _ hstep ih =>
      rw [← List.append_assoc]
      exact ih.tail hstep

theorem channels_publish (hc : n.channels[channel]? = some c) (events : List HealthEvent) :
    (n.publish channel events).channels[channel]? = some (c.sendAll events) := by
  show (n.channels.modify channel _)[channel]? = _
  rw [List.getElem?_modify_eq, hc]
  rfl

theorem publish_append (n : Node) (channel : Nat) (events events' : List HealthEvent) :
    (n.publish channel events).publish channel events' = n.publish channel (events ++ events') := by
  have hsend : ((·.sendAll events') ∘ (·.sendAll events) :
      Broadcast HealthEvent → Broadcast HealthEvent) = (·.sendAll (events ++ events')) :=
    funext fun c => (List.foldl_append ..).symm
  simp only [publish, List.modify_modify_eq, hsend]

/-- **Events that are published together** are published one after another. -/
theorem healthCourse_publish (hc : n.channels[channel]? = some c) (hopen : c.isOpen = true)
    (events : List HealthEvent) :
    n.HealthCourse channel number (events.map .published) (n.publish channel events) := by
  induction events using List.reverseRecOn with
  | nil =>
      have hsame : n.publish channel [] = n := by
        show { n with channels := n.channels.modify channel id } = n
        rw [List.modify_id]
      rw [hsame]
      exact .refl
  | append_singleton events event ih =>
      rw [List.map_append, ← publish_append]
      exact ih.tail (.publish event (channels_publish hc events)
        ((c.isOpen_sendAll events).trans hopen))

/-! ### What a step leaves -/

/-- Whatever happens outside is a use of every shard. -/
theorem Outside.exists_use (h : n.Outside m) (k : Nat) : ∃ told, n.Use k told m := by
  cases h with
  | wake ticker' h => exact ⟨_, .wake ticker' h⟩
  | openShard plan token => exact ⟨_, .openShard plan token⟩
  | closeShard id => exact ⟨_, .closeShard id⟩
  | flush shard force => exact ⟨_, .flush shard force⟩
  | fail shard reason => exact ⟨_, .fail shard reason⟩
  | close shard => exact ⟨_, .close shard⟩
  | around h => exact ⟨_, .around h⟩

theorem Outside.grows (h : n.Outside m) : n.roster.Grows m.roster := by
  cases h with
  | wake => exact .refl _
  | openShard => exact .refl _
  | closeShard id => exact (n.course_closeShard id).grows
  | flush shard force => exact (n.useCourse_flush shard force).course.grows
  | fail shard reason => exact Roster.grows_modify fun s _ => (s.same_fail reason).becomes
  | close shard => exact Roster.grows_modify fun s _ => s.becomes_close
  | around h =>
      rw [h.roster]
      exact .refl _

theorem follows_of_move? (h : n.move? i = some m) : n.roster.Follows m.roster where
  grows := (rosterCourse_of_move? h).grows
  failed k s reason hs hfailed := by
    obtain ⟨a, b, ha, -⟩ := exists_acts_of_move? h
    obtain ⟨s', hs', htold⟩ := (Use.act ha h).told hs
    exact ⟨s', hs', htold.failure_of hfailed⟩

theorem Outside.follows (h : n.Outside m) : n.roster.Follows m.roster where
  grows := h.grows
  failed k s reason hs hfailed := by
    obtain ⟨told, huse⟩ := h.exists_use k
    obtain ⟨s', hs', htold⟩ := huse.told hs
    exact ⟨s', hs', htold.failure_of hfailed⟩

theorem HealthStep.follows (h : n.HealthStep channel number entries m) :
    n.roster.Follows m.roster := by
  cases h with
  | publish => exact .refl _
  | hangUp => exact .refl _
  | listen hmove => exact follows_of_move? hmove
  | act hmove => exact follows_of_move? hmove
  | outside houtside => exact houtside.follows

theorem HealthCourse.follows (h : n.HealthCourse channel number log m) :
    n.roster.Follows m.roster := by
  induction h with
  | refl => exact .refl _
  | tail _ hstep ih => exact ih.trans hstep.follows

/-- Nothing that happens outside changes a listener. -/
theorem Outside.listener (h : n.Outside m) {hasEnded : Bool}
    (ha : n.activities[number]? = some (.listening channel ticket hasEnded)) :
    m.activities[number]? = some (.listening channel ticket hasEnded) := by
  obtain ⟨told, huse⟩ := h.exists_use 0
  rcases h.activities with ⟨j, shard, interval, t, ticker, ticker', hwaits, heq⟩ | ⟨late, heq, -⟩
  · have hj : number ≠ j := by
      rintro rfl
      rw [ha] at hwaits
      cases hwaits
    rw [heq, List.getElem?_set_ne hj.symm]
    exact ha
  · rw [heq, List.getElem?_append_left (List.getElem?_eq_some_iff.mp ha).1]
    exact ha

/-! ### The listener -/

/-- The listener of a number and its channel, with all that is on that. -/
structure Listens (n : Node) (channel number : Nat) (ticket : TaskTicket) (capacity : Nat)
    (c : Broadcast HealthEvent) (hasEnded : Bool) : Prop where
  place : n.channels[channel]? = some c
  listener : n.activities[number]? = some (.listening channel ticket hasEnded)
  room : c.capacity = capacity
  fits : c.unread.length ≤ capacity

variable {hasEnded hasEnded' : Bool}

/-- **The next step of a listener**: it ends, or it hears what it gets from the channel. -/
theorem Listens.move (h : n.Listens channel number ticket capacity c hasEnded)
    (hmove : n.move? number = some m) :
    hasEnded = false ∧
      (m.Listens channel number ticket capacity c true ∨
        ∃ receipt c', c.receive = some (receipt, c') ∧ receipt ≠ .closed ∧
          n.heardBy number = [.heard receipt] ∧
          m = { n with
            channels := n.channels.set channel c', roster := n.roster.hear receipt }) := by
  obtain ⟨a, ha, hmove⟩ := Option.bind_eq_some_iff.mp hmove
  obtain rfl := Option.some.inj (h.listener.symm.trans ha)
  obtain ⟨d, hd, hrest⟩ := Option.bind_eq_some_iff.mp hmove
  obtain rfl : c = d := Option.some.inj (h.place.symm.trans hd)
  dsimp only at hrest
  have hends : ∀ k : Node, k = (n.set number (.listening channel ticket true)).finish ticket →
      k.Listens channel number ticket capacity c true := by
    rintro k rfl
    exact ⟨h.place, activities_set n h.listener, h.room, h.fits⟩
  cases hasEnded with
  | true => cases hrest
  | false =>
      refine ⟨rfl, ?_⟩
      rw [if_neg Bool.false_ne_true] at hrest
      split at hrest
      · exact .inl (hends m (Option.some.inj hrest).symm)
      · rename_i hwaits
        obtain ⟨⟨receipt, c'⟩, hreceive, heq⟩ := Option.bind_eq_some_iff.mp hrest
        dsimp only at heq
        split at heq
        · exact .inl (hends m (Option.some.inj heq).symm)
        · rename_i hopen
          refine .inr ⟨receipt, c', hreceive, hopen, ?_, (Option.some.inj heq).symm⟩
          rw [heardBy, h.listener]
          simp [receipt?, hwaits, h.place, hreceive]

/-- A listener that has heard something. -/
theorem Listens.hear (h : n.Listens channel number ticket capacity c hasEnded)
    (hreceive : c.receive = some (receipt, c')) :
    Listens { n with channels := n.channels.set channel c', roster := n.roster.hear receipt }
      channel number ticket capacity c' hasEnded where
  place := List.getElem?_set_self (List.getElem?_eq_some_iff.mp h.place).1
  listener := h.listener
  room := (Broadcast.capacity_receive hreceive).trans h.room
  fits := Nat.le_trans (Broadcast.length_receive_le hreceive) h.fits

theorem Listens.publish (h : n.Listens channel number ticket capacity c hasEnded)
    (events : List HealthEvent) :
    (n.publish channel events).Listens channel number ticket capacity (c.sendAll events)
      hasEnded where
  place := channels_publish h.place events
  listener := h.listener
  room := (c.capacity_sendAll events).trans h.room
  fits := by
    have hfits := h.fits
    rw [← h.room] at hfits ⊢
    exact c.length_sendAll_le events hfits

theorem Listens.hangUp (h : n.Listens channel number ticket capacity c hasEnded) :
    Listens { n with channels := n.channels.modify channel Broadcast.hangUp } channel number ticket
      capacity c.hangUp hasEnded where
  place := by
    show (n.channels.modify channel _)[channel]? = _
    rw [List.getElem?_modify_eq, h.place]
    rfl
  listener := h.listener
  room := h.room
  fits := h.fits

/-- Whatever others do, they leave the listener and its channel alone. -/
theorem Listens.beside (h : n.Listens channel number ticket capacity c hasEnded)
    (hchannel : m.channels[channel]? = n.channels[channel]?)
    (hlistener : m.activities[number]? = n.activities[number]?) :
    m.Listens channel number ticket capacity c hasEnded :=
  ⟨hchannel.trans h.place, hlistener.trans h.listener, h.room, h.fits⟩

theorem Listens.act (h : n.Listens channel number ticket capacity c hasEnded)
    (hmove : n.move? i = some m) (hi : i ≠ number)
    (hchannel : m.channels[channel]? = n.channels[channel]?) :
    m.Listens channel number ticket capacity c hasEnded := by
  obtain ⟨a, b, ha, hacts⟩ := exists_acts_of_move? hmove
  exact h.beside hchannel ((hacts.other ha hi.symm h.listener).trans h.listener.symm)

theorem Listens.outside (h : n.Listens channel number ticket capacity c hasEnded)
    (houtside : n.Outside m) (hchannel : m.channels[channel]? = n.channels[channel]?) :
    m.Listens channel number ticket capacity c hasEnded :=
  h.beside hchannel ((houtside.listener h.listener).trans h.listener.symm)

/-- What a step of a course means for a listener and its channel, and what happens there. -/
inductive Hearing (n m : Node) (channel : Nat) (c : Broadcast HealthEvent) :
    Bool → List HealthEntry → Broadcast HealthEvent → Bool → Prop where
  | send (event : HealthEvent) {hasEnded : Bool} (hopen : c.isOpen = true)
      (hm : m = n.publish channel [event]) :
      Hearing n m channel c hasEnded [.published event] (c.send event) hasEnded
  | hear {receipt : Broadcast.Receipt HealthEvent} {c' : Broadcast HealthEvent}
      (hreceive : c.receive = some (receipt, c')) (hreceipt : receipt ≠ .closed)
      (hroster : m.roster = n.roster.hear receipt) :
      Hearing n m channel c false [.heard receipt] c' false
  /-- The listener ends. -/
  | deafen (entries : List HealthEntry) : Hearing n m channel c false entries c true
  /-- Nothing happens but that the sender may go. -/
  | pass {hasEnded : Bool} {c' : Broadcast HealthEvent} (hunread : c'.unread = c.unread)
      (hmissed : c'.missed = c.missed) : Hearing n m channel c hasEnded [] c' hasEnded

/-- **A listener stays what it is**, until it ends. -/
theorem Listens.step (h : n.Listens channel number ticket capacity c hasEnded)
    (hstep : n.HealthStep channel number entries m) :
    ∃ c' hasEnded', m.Listens channel number ticket capacity c' hasEnded' ∧
      n.Hearing m channel c hasEnded entries c' hasEnded' := by
  cases hstep with
  | publish event hc hopen =>
      obtain rfl := Option.some.inj (h.place.symm.trans hc)
      exact ⟨_, _, h.publish [event], .send event hopen rfl⟩
  | hangUp => exact ⟨_, _, h.hangUp, .pass rfl rfl⟩
  | listen hmove =>
      obtain ⟨rfl, hended | ⟨receipt, c', hreceive, hreceipt, hheard, rfl⟩⟩ := h.move hmove
      · exact ⟨_, _, hended, .deafen _⟩
      · rw [hheard]
        exact ⟨_, _, h.hear hreceive, .hear hreceive hreceipt rfl⟩
  | act hmove hi hchannel => exact ⟨_, _, h.act hmove hi hchannel, .pass rfl rfl⟩
  | outside houtside hchannel => exact ⟨_, _, h.outside houtside hchannel, .pass rfl rfl⟩

theorem Listens.course (h : n.Listens channel number ticket capacity c hasEnded)
    (hcourse : n.HealthCourse channel number log m) :
    ∃ c' hasEnded', m.Listens channel number ticket capacity c' hasEnded' := by
  induction hcourse with
  | refl => exact ⟨c, hasEnded, h⟩
  | tail _ hstep ih =>
      obtain ⟨_, _, h'⟩ := ih
      obtain ⟨c', hasEnded', h'', -⟩ := h'.step hstep
      exact ⟨c', hasEnded', h''⟩

/-- A channel on which somebody starts to listen has room for as many events as asked for. -/
theorem listens_listen (n : Node) (wanted : Nat) :
    ∃ ticket, (n.listen wanted).Listens n.channels.length n.activities.length ticket
      wanted.nextPowerOfTwo (Broadcast.withRoomFor wanted) false := by
  have hlength : n.hangUp.channels.length = n.channels.length := List.length_modify ..
  refine ⟨(n.hangUp.group.start "engine-health-listener" .background).2, ?_, ?_, rfl,
    Nat.zero_le _⟩
  · show (n.hangUp.channels ++ [Broadcast.withRoomFor wanted])[n.channels.length]? = _
    rw [← hlength, List.getElem?_concat_length]
  · show (n.activities ++ [Activity.listening n.hangUp.channels.length _ false])[
      n.activities.length]? = _
    rw [List.getElem?_concat_length, hlength]
    rfl

/-! ### What becomes of a failed restart -/

/-- Since `q`, `before` has happened on a channel, and then the event that was published at `q` was
the oldest of the full channel; then `other` was published, and `after` happened. -/
def Overwritten (q : Node) (channel number capacity : Nat) (event : HealthEvent)
    (before : List HealthEntry) (other : HealthEvent) (after : List HealthEntry) (m : Node) :
    Prop :=
  ∃ p d, q.HealthCourse channel number before p ∧ p.channels[channel]? = some d ∧
    d.unread = event :: HealthEntry.events before ∧ d.unread.length = capacity ∧
    (p.publish channel [other]).HealthCourse channel number after m

/-- What has become of an event that was published at `q`, after `log`. -/
inductive Fate (q : Node) (channel number capacity : Nat) (event : HealthEvent) (m : Node)
    (c : Broadcast HealthEvent) : Bool → List HealthEntry → Prop where
  | unread {hasEnded : Bool} {log : List HealthEntry} (older : List HealthEvent)
      (h : c.unread = older ++ event :: HealthEntry.events log) :
      Fate q channel number capacity event m c hasEnded log
  | heard {hasEnded : Bool} {log : List HealthEntry} (h : q.roster.FailedSince m.roster) :
      Fate q channel number capacity event m c hasEnded log
  /-- The listener has been told that it missed something, or is about to be told. -/
  | overwritten {hasEnded : Bool} {before after : List HealthEntry} {other : HealthEvent}
      (h : q.Overwritten channel number capacity event before other after m)
      (hmissed : 0 < c.missed ∨ ∃ count, .heard (.missed count) ∈ after) :
      Fate q channel number capacity event m c hasEnded (before ++ .published other :: after)
  | unheard {log : List HealthEntry} : Fate q channel number capacity event m c true log

variable {role error : String} {older : List HealthEvent} {before after : List HealthEntry}
  {other : HealthEvent}

/-- A failed restart that the listener has not got yet. -/
theorem fate_of_unread (h : n.Listens channel number ticket capacity c hasEnded)
    (hcourse : q.HealthCourse channel number log n)
    (hunread : c.unread = older ++ .restartFailed role error :: HealthEntry.events log)
    (hhearing : n.Hearing m channel c hasEnded entries c' hasEnded') :
    q.Fate channel number capacity (.restartFailed role error) m c' hasEnded' (log ++ entries) := by
  cases hhearing with
  | send event hopen hm =>
      rcases Broadcast.send_cases hopen (h.room.symm ▸ h.fits) hunread event with
        ⟨older', hunread'⟩ | ⟨hoverwritten, hfull, hmissed⟩
      · refine .unread older' (hunread'.trans ?_)
        rw [HealthEntry.events, HealthEntry.events, List.filterMap_append]
        rfl
      · have hcourse' : (n.publish channel [event]).HealthCourse channel number [] m := by
          rw [hm]
          exact .refl
        exact .overwritten ⟨n, c, hcourse, h.place, hoverwritten, hfull.trans h.room, hcourse'⟩
          (.inl hmissed)
  | hear hreceive hreceipt hroster =>
      have hevents (receipt : Broadcast.Receipt HealthEvent) :
          HealthEntry.events (log ++ [.heard receipt]) = HealthEntry.events log := by
        rw [HealthEntry.events, List.filterMap_append]
        exact List.append_nil _
      rcases Broadcast.receive_cases hreceive with
        ⟨-, rfl, rfl⟩ | ⟨-, oldest, rest, hrest, rfl, rfl⟩ | ⟨rfl, -⟩
      · exact .unread older (by rw [hevents, hunread])
      · rw [hunread] at hrest
        cases older with
        | nil =>
            obtain ⟨rfl, -⟩ := List.cons.inj hrest
            refine .heard ?_
            rw [hroster]
            exact Roster.failedSince_failAll hcourse.follows.grows _
        | cons o older =>
            obtain ⟨-, rfl⟩ := List.cons.inj hrest
            refine .unread older ?_
            rw [hevents]
            rfl
      · exact absurd rfl hreceipt
  | deafen => exact .unheard
  | pass hunread' =>
      rw [List.append_nil]
      exact .unread older (hunread'.trans hunread)

/-- A failed restart that has been overwritten. -/
theorem fate_of_overwritten {event : HealthEvent}
    (hoverwritten : q.Overwritten channel number capacity event before other after n)
    (hmissed : 0 < c.missed ∨ ∃ count, .heard (.missed count) ∈ after)
    (hstep : n.HealthStep channel number entries m)
    (hhearing : n.Hearing m channel c hasEnded entries c' hasEnded') :
    q.Fate channel number capacity event m c' hasEnded'
      (before ++ .published other :: after ++ entries) := by
  obtain ⟨p, d, hcourse, hd, hunread, hfull, hafter⟩ := hoverwritten
  have hlater : q.Overwritten channel number capacity event before other (after ++ entries) m :=
    ⟨p, d, hcourse, hd, hunread, hfull, hafter.tail hstep⟩
  have hheard : (∃ count, .heard (.missed count) ∈ after) →
      ∃ count, .heard (.missed count) ∈ after ++ entries :=
    fun ⟨count, hmem⟩ => ⟨count, List.mem_append_left _ hmem⟩
  rw [List.append_assoc, List.cons_append]
  cases hhearing with
  | send event _ _ =>
      exact .overwritten hlater
        (hmissed.imp (fun h => Nat.lt_of_lt_of_le h (c.missed_le_send event)) hheard)
  | hear hreceive hreceipt _ =>
      refine .overwritten hlater (hmissed.elim (fun hpos => .inr ?_) fun h => .inr (hheard h))
      -- what was missed is what the listener hears first
      rcases Broadcast.receive_cases hreceive with ⟨-, rfl, -⟩ | ⟨hnone, -⟩ | ⟨rfl, -⟩
      · exact ⟨c.missed, List.mem_append_right _ List.mem_cons_self⟩
      · omega
      · exact absurd rfl hreceipt
  | deafen => exact .unheard
  | pass _ hsame =>
      exact .overwritten hlater (hmissed.imp (fun h => hsame.symm ▸ h) hheard)

/-- **What a step makes of the fate of a failed restart.** -/
theorem Fate.step (h : n.Listens channel number ticket capacity c hasEnded)
    (hcourse : q.HealthCourse channel number log n)
    (hfate : q.Fate channel number capacity (.restartFailed role error) n c hasEnded log)
    (hstep : n.HealthStep channel number entries m) :
    ∃ c' hasEnded', m.Listens channel number ticket capacity c' hasEnded' ∧
      q.Fate channel number capacity (.restartFailed role error) m c' hasEnded'
        (log ++ entries) := by
  obtain ⟨c', hasEnded', hlistens, hhearing⟩ := h.step hstep
  refine ⟨c', hasEnded', hlistens, ?_⟩
  cases hfate with
  | unread older hunread => exact fate_of_unread h hcourse hunread hhearing
  | heard hfailed => exact .heard (hfailed.follows hcourse.follows.grows hstep.follows)
  | overwritten hoverwritten hmissed =>
      exact fate_of_overwritten hoverwritten hmissed hstep hhearing
  | unheard =>
      cases hhearing with
      | send => exact .unheard
      | pass => exact .unheard

theorem Fate.course (h : q.Listens channel number ticket capacity c hasEnded)
    (hunread : c.unread = older ++ [.restartFailed role error])
    (hcourse : q.HealthCourse channel number log m) :
    ∃ c' hasEnded', m.Listens channel number ticket capacity c' hasEnded' ∧
      q.Fate channel number capacity (.restartFailed role error) m c' hasEnded' log := by
  induction hcourse with
  | refl => exact ⟨c, hasEnded, h, .unread older hunread⟩
  | tail hbefore hstep ih =>
      obtain ⟨c', hasEnded', hlistens, hfate⟩ := ih
      exact Fate.step hlistens hbefore hfate hstep

/-! ### A listener that is left to itself -/

/-- Only a listener takes a step, once or more. -/
abbrev Hears (number : Nat) : Node → Node → Prop :=
  Relation.ReflTransGen fun a b => a.move? number = some b

theorem healthCourse_of_hears (hcourse : Hears number n m) :
    ∃ log, n.HealthCourse channel number log m := by
  induction hcourse with
  | refl => exact ⟨[], .refl⟩
  | tail _ hmove ih =>
      obtain ⟨log, hbefore⟩ := ih
      exact ⟨_, hbefore.tail (.listen hmove)⟩

theorem hears_of_moves? {count : Nat} (h : n.moves? (List.replicate count number) = some m) :
    Hears number n m := by
  induction count generalizing n with
  | zero =>
      obtain rfl := Option.some.inj h
      exact .refl
  | succ count ih =>
      rw [List.replicate_succ, moves?, List.foldlM_cons] at h
      obtain ⟨p, hmove, hrest⟩ := Option.bind_eq_some_iff.mp h
      exact .head hmove (ih hrest)

/-- **A listener that is left to itself** hears all that is on its channel. -/
theorem roster_of_hears (h : n.Listens channel number ticket capacity c false)
    (hcourse : Hears number n m) (hm : m.Listens channel number ticket capacity c' false)
    (hunread : c'.unread = []) (hmissed : c'.missed = 0) :
    m.roster = n.roster.hearAll c.drain.1 := by
  induction hcourse using Relation.ReflTransGen.head_induction_on generalizing c with
  | refl =>
      obtain rfl := Option.some.inj (h.place.symm.trans hm.place)
      rw [Broadcast.drain_of_empty hunread hmissed]
      rfl
  | head hmove hrest ih =>
      rename_i p p'
      rcases (h.move hmove).2 with hended | ⟨receipt, d, hreceive, hreceipt, -, rfl⟩
      · -- a listener that has ended takes no step, so this is where it all ends
        rcases hrest.cases_head with rfl | ⟨p'', hmove', -⟩
        · have hsame := hended.listener.symm.trans hm.listener
          cases hsame
        · exact absurd (hended.move hmove').1 Bool.noConfusion
      · rw [ih (h.hear hreceive), Broadcast.drain_of_receive hreceive hreceipt]
        rfl

/-- Of several events that are published together, a listener hears the latest. -/
theorem roster_of_published (h : n.Listens channel number ticket capacity c false)
    (hopen : c.isOpen = true) (hempty : c.unread = []) (hmissed : c.missed = 0)
    (events : List HealthEvent) (hcourse : Hears number (n.publish channel events) m)
    (hm : m.Listens channel number ticket capacity c' false)
    (hempty' : c'.unread = []) (hmissed' : c'.missed = 0) :
    m.roster = n.roster.hearAll ((events.drop (events.length - capacity)).map .item) := by
  rw [roster_of_hears (h.publish events) hcourse hm hempty' hmissed',
    Broadcast.sendAll_eq hopen hempty, Broadcast.drain, h.room, hmissed, Nat.zero_add]
  -- what was missed makes no difference
  split
  · rfl
  · rfl

/-! ### Failed restarts -/

/-- Whether a listener has not ended, and has nothing left to hear. -/
def hasDrained (m : Node) (channel number : Nat) : Bool :=
  match m.activities[number]?, m.channels[channel]? with
  | some (.listening _ _ hasEnded), some c => !hasEnded && c.unread.isEmpty && c.missed == 0
  | _, _ => false

theorem Listens.of_hasDrained (h : n.Listens channel number ticket capacity c hasEnded)
    (hdrained : n.hasDrained channel number = true) :
    hasEnded = false ∧ c.unread = [] ∧ c.missed = 0 := by
  unfold hasDrained at hdrained
  rw [h.listener, h.place] at hdrained
  simp only [Bool.and_eq_true, Bool.not_eq_true', List.isEmpty_iff, beq_iff_eq] at hdrained
  exact ⟨hdrained.1.1, hdrained.1.2, hdrained.2⟩

/-- **When a failed restart fails the hosted shards.**  Somebody starts to listen, and whatever
happens, a failed restart is published at some later moment.  Once the listener has drained the
channel, every shard that was hosted then and still is has a reason for its failure; or else the
event was still unread and the oldest of a full channel when another one was published, and the
listener has been told since that it missed something.

When a listener that has drained its channel is left to itself after a failed restart and `later`
events of another kind, all shards fail that are hosted then if there are fewer of those than there
is room for, and otherwise the roster stays as it is. -/
theorem failed_restart_heard_or_overwritten (n : Node) (wanted : Nat) {earlier : List HealthEntry}
    {n₁ : Node} {c₁ : Broadcast HealthEvent}
    (hearlier : (n.listen wanted).HealthCourse n.channels.length n.activities.length earlier n₁)
    (hplace : n₁.channels[n.channels.length]? = some c₁) (hopen : c₁.isOpen = true)
    (role error : String) :
    (∀ log m,
      (n₁.publish n.channels.length [.restartFailed role error]).HealthCourse n.channels.length
        n.activities.length log m →
      m.hasDrained n.channels.length n.activities.length = true →
      n₁.roster.FailedSince m.roster ∨
        ∃ before other after count, log = before ++ .published other :: after ∧
          (n₁.publish n.channels.length [.restartFailed role error]).Overwritten n.channels.length
            n.activities.length wanted.nextPowerOfTwo (.restartFailed role error) before other
            after m ∧
          .heard (.missed count) ∈ after) ∧
    ∀ later m, n₁.hasDrained n.channels.length n.activities.length = true →
      (∀ role error, .restartFailed role error ∉ later) →
      Hears n.activities.length
        (n₁.publish n.channels.length (.restartFailed role error :: later)) m →
      m.hasDrained n.channels.length n.activities.length = true →
      m.roster =
        if later.length < wanted.nextPowerOfTwo then
          n₁.roster.failAll (Roster.lossText role error)
        else n₁.roster := by
  obtain ⟨ticket, hstart⟩ := n.listens_listen wanted
  obtain ⟨c, hasEnded, hlistens⟩ := hstart.course hearlier
  obtain rfl := Option.some.inj (hlistens.place.symm.trans hplace)
  have hroom : 0 < wanted.nextPowerOfTwo :=
    Nat.pos_of_isPowerOfTwo (Nat.isPowerOfTwo_nextPowerOfTwo wanted)
  refine ⟨?_, ?_⟩
  · intro log m hcourse hdrained
    have hpublished := hlistens.publish [.restartFailed role error]
    obtain ⟨older, hunread⟩ :
        ∃ older, (c.send (.restartFailed role error)).unread =
          older ++ [.restartFailed role error] :=
      Broadcast.unread_send hopen (hlistens.room.symm ▸ hroom) _
    obtain ⟨c', hasEnded', hend, hfate⟩ := Fate.course hpublished hunread hcourse
    obtain ⟨rfl, hempty, hmissed⟩ := hend.of_hasDrained hdrained
    cases hfate with
    | unread older' h =>
        rw [hempty] at h
        exact absurd h.symm (List.append_ne_nil_of_right_ne_nil _ (List.cons_ne_nil _ _))
    | heard h => exact .inl h
    | overwritten h hmissed' =>
        obtain ⟨count, hmem⟩ := hmissed'.resolve_left (by omega)
        exact .inr ⟨_, _, _, count, rfl, h, hmem⟩
  · intro later m hdrained hlater hcourse hdrained'
    obtain ⟨rfl, hempty, hmissed⟩ := hlistens.of_hasDrained hdrained
    obtain ⟨log, hlog⟩ := healthCourse_of_hears hcourse
    obtain ⟨c', hasEnded', hend⟩ := (hlistens.publish _).course hlog
    obtain ⟨rfl, hempty', hmissed'⟩ := hend.of_hasDrained hdrained'
    rw [roster_of_published hlistens hopen hempty hmissed _ hcourse hend hempty' hmissed']
    exact n₁.roster.hearAll_latest role error hlater wanted.nextPowerOfTwo

end Node

namespace Node.Overrun

/-- A node that hosts a shard, and listens to health events. -/
def listening : Node := Reopening.stored.listen 64

/-- The engine is lost. -/
def loss : HealthEvent := .restartFailed "searcher" "exit status 1"

/-- The engine is lost, and `count` more events are published before the listener gets to it. -/
def published (count : Nat) : Node :=
  listening.publish 0 (loss :: List.replicate count (.ambiguous "indexer" 2))

/-- The listener has heard what there is. -/
def drained (count : Nat) : Node :=
  ((published count).moves? (List.replicate (count + 1) 2)).getD listening

/-- All that the runs come to, in one evaluation. -/
theorem comes_to :
    Reopening.stored.channels.length = 0 ∧ Reopening.stored.activities.length = 2 ∧
      listening.hasDrained 0 2 = true ∧
      ((published 63).moves? (List.replicate 64 2)).isSome = true ∧
      ((published 64).moves? (List.replicate 65 2)).isSome = true ∧
      (drained 63).hasDrained 0 2 = true ∧ (drained 64).hasDrained 0 2 = true ∧
      (Reopening.name, 0) ∈ listening.roster.hosted ∧
      (Reopening.name, 0) ∈ (drained 64).roster.hosted ∧
      listening.roster.shards[0]?.isSome = true ∧
      (drained 64).roster.shards[0]?.map HostedShard.failure = some none := by
  decide +kernel

theorem channels_listening : listening.channels[0]? = some (Broadcast.withRoomFor 64) := by
  obtain ⟨ticket, hlistens⟩ := Reopening.stored.listens_listen 64
  have hplace := hlistens.place
  rw [comes_to.1] at hplace
  exact hplace

end Node.Overrun

namespace Node

open Overrun

/-- After 63 other events the hosted shard fails, and after 64 nothing happens. -/
theorem failed_restart_heard_or_overwritten_at_capacity :
    Hears 2 (published 63) (drained 63) ∧ (drained 63).hasDrained 0 2 = true ∧
      (drained 63).roster =
        listening.roster.failAll (Roster.lossText "searcher" "exit status 1") ∧
      Hears 2 (published 64) (drained 64) ∧ (drained 64).hasDrained 0 2 = true ∧
      (drained 64).roster = listening.roster := by
  obtain ⟨hchannels, hactivities, hstart, hmoves, hmoves', hdrained, hdrained', -⟩ := comes_to
  have hhears : Hears 2 (published 63) (drained 63) :=
    hears_of_moves? (eq_some_getD hmoves listening)
  have hhears' : Hears 2 (published 64) (drained 64) :=
    hears_of_moves? (eq_some_getD hmoves' listening)
  have hothers (count : Nat) (role error : String) :
      .restartFailed role error ∉ List.replicate count (HealthEvent.ambiguous "indexer" 2) := by
    intro hmem
    cases List.eq_of_mem_replicate hmem
  have hmain := @failed_restart_heard_or_overwritten Reopening.stored 64 [] listening
    (Broadcast.withRoomFor 64)
  rw [hchannels, hactivities] at hmain
  have hburst := (hmain .refl channels_listening rfl "searcher" "exit status 1").2
  have hroster := hburst _ (drained 63) hstart (hothers 63) hhears hdrained
  have hroster' := hburst _ (drained 64) hstart (hothers 64) hhears' hdrained'
  rw [List.length_replicate, if_pos (by cbv)] at hroster
  rw [List.length_replicate, if_neg (by cbv)] at hroster'
  exact ⟨hhears, hdrained, hroster, hhears', hdrained', hroster'⟩

/-- **A failed restart that fails no shard.**  The listener has drained the channel, and the shard
that was hosted all along has no reason for a failure. -/
theorem failed_restart_missed :
    ∃ log, listening.hasDrained 0 2 = true ∧
      (listening.publish 0 [loss]).HealthCourse 0 2 log (drained 64) ∧
      (drained 64).hasDrained 0 2 = true ∧ ¬ listening.roster.FailedSince (drained 64).roster := by
  obtain ⟨-, -, hstart, -, hmoves, -, hdrained, hhosted, hhosted', hshards, hfailures⟩ := comes_to
  have hevents : published 64 =
      (listening.publish 0 [loss]).publish 0 (List.replicate 64 (.ambiguous "indexer" 2)) :=
    (publish_append listening 0 [loss] _).symm
  have hplace : (listening.publish 0 [loss]).channels[0]? =
      some ((Broadcast.withRoomFor 64).sendAll [loss]) := channels_publish channels_listening [loss]
  obtain ⟨log, hhears⟩ : ∃ log, (published 64).HealthCourse 0 2 log (drained 64) :=
    healthCourse_of_hears (hears_of_moves? (eq_some_getD hmoves listening))
  rw [hevents] at hhears
  have hcourse := (healthCourse_publish hplace (Broadcast.isOpen_sendAll ..) _).trans hhears
  refine ⟨_, hstart, hcourse, hdrained, fun hfailed => ?_⟩
  obtain ⟨s, hs⟩ := Option.isSome_iff_exists.mp hshards
  obtain ⟨s', reason, hs', hreason⟩ := hfailed Reopening.name 0 s hhosted hs hhosted'
  rw [hs', Option.map_some, hreason] at hfailures
  cases hfailures

end Node

end ShardKeeper
