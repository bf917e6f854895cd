import Mathlib.Logic.Function.Basic
import ShardKeeper.Proofs.Numbered
import ShardKeeper.Proofs.Searcher.Dialogue

/-!
# Traffic on a channel

All calls share a channel and an engine answers them, in any order of events.  Beside
the channel stands what passed on each connection, which nothing in the channel reads.

## Main definitions

* `Traffic` — a channel, and the dialogue on each of its connections.
* `Traffic.Event`, `Traffic.step?` — what the node does or suffers, and what the engine does.
* `Traffic.Happens` — all that can happen, case by case.

## Main results

* `Traffic.happens_of_step?` — the cases are complete.
-/

namespace ShardKeeper

/-- A channel, and the dialogue on each of its connections. -/
structure Traffic where
  channel : Channel
  dialogue : Nat → Dialogue

namespace Traffic

/-- What can happen: something at the node, or an act of the engine. -/
inductive Event where
  /-- A call begins, has its turn, or gets on, fails or runs out of time. -/
  | node (event : Channel.Event)
  /-- The engine says something in answer to a line that it has received. -/
  | reply (connection line : Nat) (bytes : Bytes)
  /-- The engine hangs up. -/
  | hangUp (connection : Nat)

/-- A channel that was not used yet. -/
def unused : Traffic := ⟨.unused, fun _ => .silent⟩

/-- The dialogues after an event at the node. A call that is about to write sets about it, even if
it does not get to its end. -/
def asked (t : Traffic) (event : Channel.Event) : Nat → Dialogue :=
  match event with
  | .write number _ | .expire number _ =>
    match t.channel.exchanges[number]? with
    | some ⟨request, .writing k⟩ =>
      Function.update t.dialogue k ((t.dialogue k).ask number request)
    | _ => t.dialogue
  | _ => t.dialogue

/-- The traffic after an event, if that can happen. The acts of the engine are no events at the
node: what it says is bound by the dialogue. -/
def step? (t : Traffic) : Event → Option Traffic
  | .node event =>
    match event with
    | .deliver _ _ | .hangUp _ => none
    | event => (t.channel.step? event).map fun c => ⟨c, t.asked event⟩
  | .reply connection line bytes => do
    let k ← t.channel.connections[connection]?
    let d ← (t.dialogue connection).say? k.received line bytes
    let c ← t.channel.step? (.deliver connection bytes)
    return ⟨c, Function.update t.dialogue connection d⟩
  | .hangUp connection => (t.channel.step? (.hangUp connection)).map fun c => ⟨c, t.dialogue⟩

/-- The traffic after several events, if they can happen one after the other. -/
def run? (t : Traffic) (events : List Event) : Option Traffic := events.foldlM step? t

/-! ### All that can happen -/

/-- A connection and its dialogue changed. -/
def on (t : Traffic) (connection : Nat) (k : Connection) (d : Dialogue) : Traffic where
  channel := { t.channel with connections := t.channel.connections.set connection k }
  dialogue := Function.update t.dialogue connection d

/-- One more connection. -/
def made (t : Traffic) : Traffic :=
  { t with channel := { t.channel with connections := t.channel.connections ++ [.fresh] } }

/-- A call in another phase, and another connection kept. -/
def turn (t : Traffic) (number : Nat) (e : Exchange) (phase : ExchangePhase) (kept : Option Nat) :
    Traffic :=
  { t with channel := { t.channel.setPhase number e phase with kept } }

variable {t t' : Traffic} {event : Event}

/-- All that can happen. -/
inductive Happens (t : Traffic) : Traffic → Prop
  /-- A call begins to wait. -/
  | called (request : Request) :
      Happens t { t with channel :=
        { t.channel with exchanges := t.channel.exchanges ++ [⟨request, .waiting⟩] } }
  /-- A call has its turn and takes the connection that is kept. -/
  | took {x k : Nat} {e : Exchange} (hx : t.channel.exchanges[x]? = some e)
      (hphase : e.phase = .waiting)
      (hfree : t.channel.isFree = true) (hkept : t.channel.kept = some k) :
      Happens t (t.turn x e (.writing k) none)
  /-- A call has its turn and finds no connection. -/
  | began {x : Nat} {e : Exchange} (hx : t.channel.exchanges[x]? = some e)
      (hphase : e.phase = .waiting)
      (hfree : t.channel.isFree = true) (hkept : t.channel.kept = none) :
      Happens t (t.turn x e .connecting none)
  /-- A call makes a connection. -/
  | connected {x : Nat} {e : Exchange} (hx : t.channel.exchanges[x]? = some e)
      (hphase : e.phase = .connecting) :
      Happens t (t.made.turn x e (.writing t.channel.connections.length) t.channel.kept)
  /-- A call fails while it neither writes nor has ended. -/
  | failed {x : Nat} {e : Exchange} (fault : ChannelFault) (hx : t.channel.exchanges[x]? = some e)
      (hphase : e.phase = .waiting ∨ e.phase = .connecting ∨ ∃ k, e.phase = .reading k) :
      Happens t (t.turn x e (.done (e.request.nullAnswer fault)) t.channel.kept)
  /-- A call writes its request. -/
  | wrote {x k : Nat} {e : Exchange} {conn : Connection} (hx : t.channel.exchanges[x]? = some e)
      (hphase : e.phase = .writing k) (hk : t.channel.connections[k]? = some conn) :
      Happens t ((t.on k (conn.receive (WireMessage.encode e.request))
        ((t.dialogue k).ask x e.request)).turn x e (.reading k) t.channel.kept)
  /-- A call fails after some bytes of its request, or all of them. -/
  | stopped {x k : Nat} {e : Exchange} {conn : Connection} {bytes : Bytes} (fault : ChannelFault)
      (hx : t.channel.exchanges[x]? = some e) (hphase : e.phase = .writing k)
      (hk : t.channel.connections[k]? = some conn)
      (hbytes : bytes <+: WireMessage.encode e.request) :
      Happens t ((t.on k (conn.receive bytes) ((t.dialogue k).ask x e.request)).turn x e
        (.done (e.request.nullAnswer fault)) t.channel.kept)
  /-- A call reads its answer and gives the connection back. -/
  | answered {x k : Nat} {e : Exchange} {conn : Connection} {answer : Answer} {rest : Bytes}
      (hx : t.channel.exchanges[x]? = some e) (hphase : e.phase = .reading k)
      (hk : t.channel.connections[k]? = some conn)
      (hanswer : conn.answer? e.request = some (.ok answer, rest)) :
      Happens t ((t.on k { conn with unread := rest } (t.dialogue k)).turn x e (.done answer)
        (some k))
  /-- A call reads what is no answer, or the end of the connection. -/
  | disappointed {x k : Nat} {e : Exchange} {conn : Connection} (fault : ChannelFault)
      (rest : Bytes) (hx : t.channel.exchanges[x]? = some e) (hphase : e.phase = .reading k)
      (hk : t.channel.connections[k]? = some conn) :
      Happens t ((t.on k { conn with unread := rest } (t.dialogue k)).turn x e
        (.done (e.request.nullAnswer fault)) t.channel.kept)
  /-- The engine says something. -/
  | replied {k line : Nat} {conn : Connection} {bytes : Bytes} {d : Dialogue}
      (hk : t.channel.connections[k]? = some conn) (hopen : conn.hungUp = false)
      (hsay : (t.dialogue k).say? conn.received line bytes = some d) :
      Happens t (t.on k { conn with unread := conn.unread ++ bytes } d)
  /-- The engine hangs up. -/
  | hungUp {k : Nat} {conn : Connection} (hk : t.channel.connections[k]? = some conn) :
      Happens t (t.on k { conn with hungUp := true } (t.dialogue k))

/-- Whether every call that is about to write has a connection. -/
def WritesSomewhere (c : Channel) : Prop :=
  ∀ (x : Nat) (e : Exchange) (k : Nat), c.exchanges[x]? = some e → e.phase = .writing k →
    ∃ conn, c.connections[k]? = some conn

theorem transmit_eq {c : Channel} {k : Nat} {conn : Connection}
    (hk : c.connections[k]? = some conn) (bytes : Bytes) :
    c.transmit k bytes = { c with connections := c.connections.set k (conn.receive bytes) } := by
  have hset : (c.connections.modify k fun conn => conn.receive bytes) =
      c.connections.set k (conn.receive bytes) := by
    refine List.ext_getElem? fun i => ?_
    rw [List.getElem?_modify, List.getElem?_set]
    rcases eq_or_ne k i with rfl | hne
    · rw [hk, if_pos rfl, if_pos (List.getElem?_eq_some_iff.mp hk).1]
      simp
    · simp [hne]
  exact congrArg (fun l => { c with connections := l }) hset

theorem on_self_eq (t : Traffic) (k : Nat) (conn : Connection) :
    (t.on k conn (t.dialogue k)) =
      { t with channel := { t.channel with connections := t.channel.connections.set k conn } } := by
  rw [on, Function.update_eq_self]

theorem asked_of_writing {x k : Nat} {e : Exchange} (hx : t.channel.exchanges[x]? = some e)
    (hphase : e.phase = .writing k) :
    (match t.channel.exchanges[x]? with
      | some ⟨request, .writing k⟩ =>
        Function.update t.dialogue k ((t.dialogue k).ask x request)
      | _ => t.dialogue) = Function.update t.dialogue k ((t.dialogue k).ask x e.request) := by
  obtain ⟨request, phase⟩ := e
  cases hphase
  rw [hx]

theorem asked_of_not_writing {x : Nat} {e : Exchange} (hx : t.channel.exchanges[x]? = some e)
    (hphase : ∀ k, e.phase ≠ .writing k) :
    (match t.channel.exchanges[x]? with
      | some ⟨request, .writing k⟩ =>
        Function.update t.dialogue k ((t.dialogue k).ask x request)
      | _ => t.dialogue) = t.dialogue := by
  obtain ⟨request, phase⟩ := e
  rw [hx]
  cases phase with
  | writing k => exact absurd rfl (hphase k)
  | waiting => rfl
  | connecting => rfl
  | reading k => rfl
  | done answer => rfl

/-! ### What comes of an event -/

section Acts

variable {c : Channel} {x : Nat}

theorem happens_of_take (h : t.channel.step? (.take x) = some c) : Happens t ⟨c, t.dialogue⟩ := by
  obtain ⟨e, hx, h⟩ := Option.bind_eq_some_iff.mp h
  split at h
  · rename_i hmay
    obtain ⟨hphase, hfree⟩ := hmay
    split at h
    · rename_i k hkept
      cases h
      exact .took hx hphase hfree hkept
    · -- without a connection to take, the call begins to make one, and still none is kept
      rename_i hkept
      cases h
      have hbegan := Happens.began hx hphase hfree hkept
      rwa [← hkept] at hbegan
  · cases h

theorem happens_of_connect {accepted : Bool} (h : t.channel.step? (.connect x accepted) = some c) :
    Happens t ⟨c, t.dialogue⟩ := by
  obtain ⟨e, hx, h⟩ := Option.bind_eq_some_iff.mp h
  split at h
  · rename_i hphase
    cases accepted with
    | true =>
        cases h
        exact .connected hx hphase
    | false =>
        cases h
        exact .failed .broken hx (Or.inr (Or.inl hphase))
  · cases h

theorem happens_of_write (hs : WritesSomewhere t.channel) {brokenAfter : Option Nat}
    (h : t.channel.step? (.write x brokenAfter) = some c) :
    Happens t ⟨c, t.asked (.write x brokenAfter)⟩ := by
  obtain ⟨e, hx, h⟩ := Option.bind_eq_some_iff.mp h
  split at h
  · rename_i k hphase
    obtain ⟨conn, hk⟩ := hs x e k hx hphase
    have hasked : t.asked (.write x brokenAfter) = _ := asked_of_writing hx hphase
    rw [hasked]
    cases brokenAfter with
    | none =>
        cases h
        rw [transmit_eq hk]
        exact .wrote hx hphase hk
    | some count =>
        cases h
        rw [transmit_eq hk]
        exact .stopped .broken hx hphase hk (List.take_prefix _ _)
  · cases h

theorem happens_of_read (h : t.channel.step? (.read x) = some c) : Happens t ⟨c, t.dialogue⟩ := by
  obtain ⟨e, hx, h⟩ := Option.bind_eq_some_iff.mp h
  split at h
  · rename_i k hphase
    obtain ⟨conn, hk, h⟩ := Option.bind_eq_some_iff.mp h
    obtain ⟨⟨result, rest⟩, hanswer, h⟩ := Option.bind_eq_some_iff.mp h
    cases result with
    | ok answer =>
        cases h
        have hread := Happens.answered hx hphase hk hanswer
        rwa [on_self_eq] at hread
    | error fault =>
        cases h
        have hread := Happens.disappointed (.ofStream fault) rest hx hphase hk
        rwa [on_self_eq] at hread
  · cases h

theorem happens_of_lose (h : t.channel.step? (.lose x) = some c) : Happens t ⟨c, t.dialogue⟩ := by
  obtain ⟨e, hx, h⟩ := Option.bind_eq_some_iff.mp h
  split at h
  · rename_i k hphase
    cases h
    exact .failed .broken hx (Or.inr (Or.inr ⟨k, hphase⟩))
  · cases h

/-- A call that runs out of time in the midst of its request has set about writing it. -/
theorem happens_of_expire (hs : WritesSomewhere t.channel) {written : Nat}
    (h : t.channel.step? (.expire x written) = some c) :
    Happens t ⟨c, t.asked (.expire x written)⟩ := by
  obtain ⟨e, hx, h⟩ := Option.bind_eq_some_iff.mp h
  split at h
  · cases h
  · rename_i k hphase
    obtain ⟨conn, hk⟩ := hs x e k hx hphase
    have hasked : t.asked (.expire x written) = _ := asked_of_writing hx hphase
    rw [hasked]
    cases h
    rw [transmit_eq hk]
    exact .stopped .late hx hphase hk (List.take_prefix _ _)
  · rename_i hdone hwriting
    have hasked : t.asked (.expire x written) = _ := asked_of_not_writing hx hwriting
    rw [hasked]
    cases h
    refine .failed .late hx ?_
    cases hphase : e.phase with
    | waiting => exact Or.inl rfl
    | connecting => exact Or.inr (Or.inl rfl)
    | reading k => exact Or.inr (Or.inr ⟨k, rfl⟩)
    | writing k => exact absurd hphase (hwriting k)
    | done answer => exact absurd hphase (hdone answer)

theorem happens_of_reply {k line : Nat} {bytes : Bytes}
    (h : t.step? (.reply k line bytes) = some t') : Happens t t' := by
  obtain ⟨conn, hk, h⟩ := Option.bind_eq_some_iff.mp h
  obtain ⟨d, hsay, h⟩ := Option.bind_eq_some_iff.mp h
  obtain ⟨c, hc, h⟩ := Option.bind_eq_some_iff.mp h
  obtain ⟨conn', hk', hc⟩ := Option.bind_eq_some_iff.mp hc
  obtain rfl : conn = conn' := Option.some.inj (hk.symm.trans hk')
  split at hc
  · cases hc
  · rename_i hopen
    cases hc
    cases h
    exact .replied hk (Bool.eq_false_iff.mpr hopen) hsay

theorem happens_of_hangUp {k : Nat} (h : t.channel.step? (.hangUp k) = some c) :
    Happens t ⟨c, t.dialogue⟩ := by
  obtain ⟨conn, hk, h⟩ := Option.bind_eq_some_iff.mp h
  cases h
  have hhung := Happens.hungUp hk
  rwa [on_self_eq] at hhung

end Acts

/-- **The cases are complete.** -/
theorem happens_of_step? (hs : WritesSomewhere t.channel) (h : t.step? event = some t') :
    Happens t t' := by
  cases event with
  | node event =>
      cases event with
      | call request =>
          cases h
          exact .called request
      | take x =>
          obtain ⟨c, hc, rfl⟩ := Option.map_eq_some_iff.mp h
          exact happens_of_take hc
      | connect x accepted =>
          obtain ⟨c, hc, rfl⟩ := Option.map_eq_some_iff.mp h
          exact happens_of_connect hc
      | write x brokenAfter =>
          obtain ⟨c, hc, rfl⟩ := Option.map_eq_some_iff.mp h
          exact happens_of_write hs hc
      | deliver k bytes => cases h
      | hangUp k => cases h
      | read x =>
          obtain ⟨c, hc, rfl⟩ := Option.map_eq_some_iff.mp h
          exact happens_of_read hc
      | lose x =>
          obtain ⟨c, hc, rfl⟩ := Option.map_eq_some_iff.mp h
          exact happens_of_lose hc
      | expire x written =>
          obtain ⟨c, hc, rfl⟩ := Option.map_eq_some_iff.mp h
          exact happens_of_expire hs hc
  | reply k line bytes => exact happens_of_reply h
  | hangUp k =>
      obtain ⟨c, hc, rfl⟩ := Option.map_eq_some_iff.mp h
      exact happens_of_hangUp hc

end Traffic

end ShardKeeper
