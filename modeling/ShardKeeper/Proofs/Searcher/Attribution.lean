import Mathlib.Data.List.Nodup
import ShardKeeper.Proofs.Searcher.Traffic

/-!
# Whose answer it is

No answer on a channel goes to the wrong call, however the calls interleave, run out of
time and fail.  One invariant carries it: at most one call has its turn, and the
connection that it holds, or that is kept, has no answer left on it but its own.

## Main definitions

* `Traffic.Sound` — the invariant, in four parts.
* `Traffic.IsReply` — the reply to the line of a call.

## Main results

* `Traffic.Sound.step` — every event keeps the invariant.
* `Traffic.answers_are_own` — what a call returns, and when a connection is kept.
-/

namespace ShardKeeper

/-- Whether a call has set about writing its request. -/
def ExchangePhase.hasAsked : ExchangePhase → Bool
  | .reading _ | .done _ => true
  | .waiting | .connecting | .writing _ => false

namespace Traffic

variable {t t' : Traffic} {x y k : Nat} {e f : Exchange} {conn conn' : Connection} {d : Dialogue}
  {phase : ExchangePhase} {kept : Option Nat}

theorem on_connection_iff (hk : t.channel.connections[k]? = some conn) {i : Nat} {c : Connection} :
    (t.on k conn' d).channel.connections[i]? = some c ↔
      (i = k ∧ c = conn') ∨ (i ≠ k ∧ t.channel.connections[i]? = some c) :=
  getElem?_set_eq_some_iff hk

theorem turn_exchange_iff (hx : t.channel.exchanges[x]? = some e) :
    (t.turn x e phase kept).channel.exchanges[y]? = some f ↔
      (y = x ∧ f = { e with phase }) ∨ (y ≠ x ∧ t.channel.exchanges[y]? = some f) :=
  getElem?_set_eq_some_iff hx

theorem on_dialogue_self (t : Traffic) (k : Nat) (conn : Connection) (d : Dialogue) :
    (t.on k conn d).dialogue k = d := by
  show Function.update t.dialogue k d k = d
  rw [Function.update_self]

theorem on_dialogue_of_ne (t : Traffic) {i : Nat} (hi : i ≠ k) (conn : Connection) (d : Dialogue) :
    (t.on k conn d).dialogue i = t.dialogue i := by
  show Function.update t.dialogue k d i = t.dialogue i
  rw [Function.update_of_ne hi]

/-! ### Whose turn it is -/

section Turns

variable {exchanges : List Exchange}

/-- At most one call has its turn, and none while a connection is kept. -/
structure Lock (exchanges : List Exchange) (kept : Option Nat) : Prop where
  alone : ∀ (x y : Nat) (e f : Exchange), exchanges[x]? = some e → exchanges[y]? = some f →
    e.phase.hasTurn = true → f.phase.hasTurn = true → x = y
  free : kept.isSome = true → ∀ (x : Nat) (e : Exchange), exchanges[x]? = some e →
    e.phase.hasTurn = false

theorem hasTurn_of_isFree {c : Channel} (h : c.isFree = true) (hx : c.exchanges[x]? = some e) :
    e.phase.hasTurn = false := by
  have hall := List.all_eq_true.mp h e (List.mem_of_getElem? hx)
  simpa using hall

theorem Lock.others (h : Lock exchanges kept) (hx : exchanges[x]? = some e)
    (hturn : e.phase.hasTurn = true) (y : Nat) (f : Exchange) (hne : y ≠ x)
    (hy : exchanges[y]? = some f) : f.phase.hasTurn = false := by
  by_contra hf
  exact hne (h.alone y x f e hy hx (Bool.of_not_eq_false hf) hturn)

/-- While a call has its turn no connection is kept. -/
theorem Lock.kept_ne_some (h : Lock exchanges kept) (hx : exchanges[x]? = some e)
    (hturn : e.phase.hasTurn = true) (k : Nat) : kept ≠ some k := by
  rintro rfl
  have hidle := h.free rfl x e hx
  rw [hturn] at hidle
  cases hidle

/-- A call may have its turn, or give it up, when no other call has it. -/
theorem lock_set (hx : exchanges[x]? = some e)
    (hothers : ∀ (y : Nat) (f : Exchange), y ≠ x → exchanges[y]? = some f →
      f.phase.hasTurn = false)
    (hkept : phase.hasTurn = true → kept = none) :
    Lock (exchanges.set x { e with phase }) kept := by
  have hme : ∀ (y : Nat) (f : Exchange), (exchanges.set x { e with phase })[y]? = some f →
      f.phase.hasTurn = true → y = x ∧ phase.hasTurn = true := by
    intro y f hy hf
    rcases (getElem?_set_eq_some_iff hx).mp hy with ⟨rfl, rfl⟩ | ⟨hne, hy⟩
    · exact ⟨rfl, hf⟩
    · rw [hothers y f hne hy] at hf
      cases hf
  refine ⟨fun y z f g hy hz hf hg => ?_, fun hsome y f hy => ?_⟩
  · rw [(hme y f hy hf).1, (hme z g hz hg).1]
  · by_contra hf
    have hphase := (hme y f hy (Bool.of_not_eq_false hf)).2
    rw [hkept hphase] at hsome
    cases hsome

/-- Where no call gets its turn, the turn is as it was. -/
theorem Lock.of_imp {exchanges' : List Exchange} (h : Lock exchanges kept)
    (himp : ∀ (y : Nat) (f : Exchange), exchanges'[y]? = some f → f.phase.hasTurn = true →
      exchanges[y]? = some f) : Lock exchanges' kept := by
  refine ⟨fun y z f g hy hz hf hg => h.alone y z f g (himp y f hy hf) (himp z g hz hg) hf hg,
    fun hsome y f hy => ?_⟩
  by_contra hf
  have hturn := Bool.of_not_eq_false hf
  exact hf (h.free hsome y f (himp y f hy hturn))

/-- A call that ends, whether it had its turn or not. -/
theorem Lock.set_done (h : Lock exchanges kept) (hx : exchanges[x]? = some e) (answer : Answer) :
    Lock (exchanges.set x { e with phase := .done answer }) kept := by
  refine h.of_imp fun y f hy hf => ?_
  rcases (getElem?_set_eq_some_iff hx).mp hy with ⟨rfl, rfl⟩ | ⟨-, hy⟩
  · cases hf
  · exact hy

theorem Lock.concat_waiting (h : Lock exchanges kept) (request : Request) :
    Lock (exchanges ++ [⟨request, .waiting⟩]) kept := by
  refine h.of_imp fun y f hy hf => ?_
  rcases getElem?_concat_eq_some_iff.mp hy with ⟨-, rfl⟩ | hy
  · cases hf
  · exact hy

theorem Lock.happens (hl : Lock t.channel.exchanges t.channel.kept) (h : Happens t t') :
    Lock t'.channel.exchanges t'.channel.kept := by
  cases h with
  | called request => exact hl.concat_waiting request
  | took hx hphase hfree hkept =>
      exact lock_set hx (fun _ _ _ hy => hasTurn_of_isFree hfree hy) fun _ => rfl
  | began hx hphase hfree hkept =>
      exact lock_set hx (fun _ _ _ hy => hasTurn_of_isFree hfree hy) fun _ => rfl
  | connected hx hphase =>
      have hturn := congrArg ExchangePhase.hasTurn hphase
      exact lock_set hx (hl.others hx hturn) fun _ =>
        Option.eq_none_iff_forall_ne_some.mpr (hl.kept_ne_some hx hturn)
  | failed fault hx hphase => exact hl.set_done hx _
  | wrote hx hphase hk =>
      have hturn := congrArg ExchangePhase.hasTurn hphase
      exact lock_set hx (hl.others hx hturn) fun _ =>
        Option.eq_none_iff_forall_ne_some.mpr (hl.kept_ne_some hx hturn)
  | stopped fault hx hphase hk hbytes => exact hl.set_done hx _
  | answered hx hphase hk hanswer =>
      have hturn := congrArg ExchangePhase.hasTurn hphase
      exact lock_set hx (hl.others hx hturn) fun hsome => by cases hsome
  | disappointed fault rest hx hphase hk => exact hl.set_done hx _
  | replied hk hopen hsay => exact hl
  | hungUp hk => exact hl

end Turns

/-! ### What was received and said -/

/-- Every connection made has heard only what was written to it, and nothing passed on others. -/
structure Transport (t : Traffic) : Prop where
  unmade : ∀ k, t.channel.connections.length ≤ k → t.dialogue k = .silent
  heard : ∀ (k : Nat) (conn : Connection), t.channel.connections[k]? = some conn →
    (t.dialogue k).Heard conn

theorem Transport.on (h : Transport t) (hk : t.channel.connections[k]? = some conn)
    (hheard : d.Heard conn') : Transport (t.on k conn' d) := by
  refine ⟨fun i hi => ?_, fun i c hi => ?_⟩
  · have hlt := (List.getElem?_eq_some_iff.mp hk).1
    change (t.channel.connections.set k conn').length ≤ i at hi
    rw [List.length_set] at hi
    rw [on_dialogue_of_ne t (by omega)]
    exact h.unmade i hi
  · rcases (on_connection_iff hk).mp hi with ⟨rfl, rfl⟩ | ⟨hne, hi⟩
    · rw [on_dialogue_self]
      exact hheard
    · rw [on_dialogue_of_ne t hne]
      exact h.heard i c hi

theorem Transport.made (h : Transport t) : Transport t.made := by
  refine ⟨fun i hi => ?_, fun i c hi => ?_⟩
  · change (t.channel.connections ++ [Connection.fresh]).length ≤ i at hi
    rw [List.length_append, List.length_singleton] at hi
    exact h.unmade i (by omega)
  · rcases getElem?_concat_eq_some_iff.mp hi with ⟨rfl, rfl⟩ | hi
    · have hsilent : t.made.dialogue t.channel.connections.length = .silent :=
        h.unmade _ (Nat.le_refl _)
      rw [hsilent]
      exact Dialogue.heard_fresh
    · exact h.heard i c hi

/-! ### Who wrote -/

section Askers

variable {exchanges : List Exchange} {askers askers' : Nat → List (Nat × Request)}

/-- Only calls that have set about it wrote their requests, each once. -/
structure Asks (exchanges : List Exchange) (askers : Nat → List (Nat × Request)) : Prop where
  asked : ∀ k, ∀ a ∈ askers k, ∃ e, exchanges[a.1]? = some e ∧ e.request = a.2 ∧
    e.phase.hasAsked = true
  once : ∀ (x : Nat) (r r' : Request) (k k' j j' : Nat), (askers k)[j]? = some (x, r) →
    (askers k')[j']? = some (x, r') → k = k' ∧ j = j'

theorem Asks.concat (h : Asks exchanges askers) (e : Exchange) :
    Asks (exchanges ++ [e]) askers := by
  refine ⟨fun k a ha => ?_, h.once⟩
  obtain ⟨f, hf, hrest⟩ := h.asked k a ha
  exact ⟨f, getElem?_concat_eq_some_iff.mpr (Or.inr hf), hrest⟩

theorem Asks.set (h : Asks exchanges askers) (hx : exchanges[x]? = some e)
    (hphase : e.phase.hasAsked = true → phase.hasAsked = true) :
    Asks (exchanges.set x { e with phase }) askers := by
  refine ⟨fun k a ha => ?_, h.once⟩
  obtain ⟨f, hf, hrequest, hasked⟩ := h.asked k a ha
  rcases eq_or_ne a.1 x with heq | hne
  · rw [heq, hx] at hf
    cases hf
    exact ⟨{ e with phase }, (getElem?_set_eq_some_iff hx).mpr (Or.inl ⟨heq, rfl⟩), hrequest,
      hphase hasked⟩
  · exact ⟨f, (getElem?_set_eq_some_iff hx).mpr (Or.inr ⟨hne, hf⟩), hrequest, hasked⟩

/-- A call that sets about writing has not written before. -/
theorem Asks.ask (h : Asks exchanges askers) (hx : exchanges[x]? = some e)
    (hnew : e.phase.hasAsked = false) (hphase : phase.hasAsked = true)
    (hk : askers' k = askers k ++ [(x, e.request)]) (hothers : ∀ i, i ≠ k → askers' i = askers i) :
    Asks (exchanges.set x { e with phase }) askers' := by
  have hset : Asks (exchanges.set x { e with phase }) askers := h.set hx fun _ => hphase
  -- whoever has written has set about it, and this call has not
  have hfresh : ∀ (i j : Nat) (r : Request), (askers i)[j]? ≠ some (x, r) := by
    intro i j r hj
    obtain ⟨f, hf, -, hasked⟩ := h.asked i _ (List.mem_of_getElem? hj)
    rw [hx] at hf
    cases hf
    rw [hnew] at hasked
    cases hasked
  have hcases : ∀ (i j y : Nat) (r : Request), (askers' i)[j]? = some (y, r) →
      (i = k ∧ j = (askers k).length ∧ y = x) ∨ (askers i)[j]? = some (y, r) := by
    intro i j y r hj
    rcases eq_or_ne i k with rfl | hne
    · rw [hk] at hj
      rcases getElem?_concat_eq_some_iff.mp hj with ⟨hat, hpair⟩ | hj
      · cases hpair
        exact Or.inl ⟨rfl, hat, rfl⟩
      · exact Or.inr hj
    · rw [hothers i hne] at hj
      exact Or.inr hj
  refine ⟨fun i a ha => ?_, fun y r r' i i' j j' hj hj' => ?_⟩
  · obtain ⟨j, hj⟩ := List.mem_iff_getElem?.mp ha
    rcases eq_or_ne i k with rfl | hne
    · rw [hk] at ha
      rcases List.mem_append.mp ha with ha | ha
      · exact hset.asked i a ha
      · rw [List.mem_singleton.mp ha]
        exact ⟨{ e with phase }, (getElem?_set_eq_some_iff hx).mpr (Or.inl ⟨rfl, rfl⟩), rfl, hphase⟩
    · rw [hothers i hne] at ha
      exact hset.asked i a ha
  · rcases hcases i j y r hj with ⟨rfl, rfl, rfl⟩ | hold
    · rcases hcases i' j' y r' hj' with ⟨rfl, rfl, -⟩ | hold'
      · exact ⟨rfl, rfl⟩
      · exact absurd hold' (hfresh i' j' r')
    · rcases hcases i' j' y r' hj' with ⟨-, -, rfl⟩ | hold'
      · exact absurd hold (hfresh i j r)
      · exact h.once y r r' i i' j j' hold hold'

end Askers

/-- The calls that wrote to each connection. -/
def askers (t : Traffic) (k : Nat) : List (Nat × Request) := (t.dialogue k).askers

theorem Asks.say {exchanges : List Exchange} (h : Asks exchanges t.askers)
    (hsame : d.askers = (t.dialogue k).askers) :
    Asks exchanges fun i => (Function.update t.dialogue k d i).askers := by
  have haskers : (fun i => (Function.update t.dialogue k d i).askers) = t.askers := by
    funext i
    rcases eq_or_ne i k with rfl | hne
    · rw [Function.update_self]
      exact hsame
    · rw [Function.update_of_ne hne]
      rfl
  rw [haskers]
  exact h

theorem Asks.write (h : Asks t.channel.exchanges t.askers) (hx : t.channel.exchanges[x]? = some e)
    (hwriting : e.phase = .writing k) (hphase : phase.hasAsked = true) :
    Asks (t.channel.exchanges.set x { e with phase }) fun i =>
      (Function.update t.dialogue k ((t.dialogue k).ask x e.request) i).askers := by
  refine h.ask hx (by rw [hwriting]; rfl) hphase (k := k) ?_ fun i hi => ?_
  · rw [Function.update_self]
    rfl
  · rw [Function.update_of_ne hi]
    rfl

theorem Asks.happens (ha : Asks t.channel.exchanges t.askers) (h : Happens t t') :
    Asks t'.channel.exchanges t'.askers := by
  cases h with
  | called request => exact ha.concat _
  | took hx hphase hfree hkept => exact ha.set hx (by rw [hphase]; exact fun hno => hno)
  | began hx hphase hfree hkept => exact ha.set hx (by rw [hphase]; exact fun hno => hno)
  | connected hx hphase => exact ha.set hx (by rw [hphase]; exact fun hno => hno)
  | failed fault hx hphase => exact ha.set hx fun _ => rfl
  | wrote hx hphase hk => exact ha.write hx hphase rfl
  | stopped fault hx hphase hk hbytes => exact ha.write hx hphase rfl
  | @answered x k e conn answer rest hx hphase hk hanswer =>
      exact (ha.say (k := k) (d := t.dialogue k) rfl).set hx fun _ => rfl
  | @disappointed x k e conn fault rest hx hphase hk =>
      exact (ha.say (k := k) (d := t.dialogue k) rfl).set hx fun _ => rfl
  | replied hk hopen hsay => exact ha.say (Dialogue.say?_cases hsay).2.1
  | @hungUp k conn hk => exact ha.say (k := k) (d := t.dialogue k) rfl

/-! ### What calls hold and return -/

/-- A connection on which every request was answered and every answer was read. -/
def SettledAt (t : Traffic) (k : Nat) : Prop :=
  ∃ conn, t.channel.connections[k]? = some conn ∧ (t.dialogue k).Settled conn

/-- A connection that awaits the answer to the request of a call. -/
def AwaitingAt (t : Traffic) (x : Nat) (request : Request) (k : Nat) : Prop :=
  ∃ conn, t.channel.connections[k]? = some conn ∧ (t.dialogue k).Awaiting x request conn

/-- The answer is what the engine has said, to its end, to the line of a call. -/
def Answered (t : Traffic) (x : Nat) (request : Request) (answer : Answer) : Prop :=
  ∃ k conn line said, t.channel.connections[k]? = some conn ∧
    (t.askers k)[line]? = some (x, request) ∧ (line, said) ∈ (t.dialogue k).replies ∧
    (conn.hungUp = true ∨ 0x0A ∈ said) ∧ request.answerOf? said = some answer

/-- A call that stands where its connection and its answer let it. -/
def Fits (t : Traffic) (x : Nat) (e : Exchange) : Prop :=
  match e.phase with
  | .waiting | .connecting => True
  | .writing k => t.SettledAt k
  | .reading k => t.AwaitingAt x e.request k
  | .done answer =>
    (∃ fault, answer = e.request.nullAnswer fault) ∨ t.Answered x e.request answer

/-- What is added to the connections and their dialogues. -/
def Grows (t t' : Traffic) : Prop :=
  ∀ (k : Nat) (conn : Connection), t.channel.connections[k]? = some conn →
    ∃ conn', t'.channel.connections[k]? = some conn' ∧
      Dialogue.Grows conn (t.dialogue k) conn' (t'.dialogue k)

theorem Grows.refl (t : Traffic) : t.Grows t := fun _ conn hk => ⟨conn, hk, .refl conn _⟩

theorem grows_on (hk : t.channel.connections[k]? = some conn)
    (h : Dialogue.Grows conn (t.dialogue k) conn' d) : t.Grows (t.on k conn' d) := by
  intro i c hi
  rcases eq_or_ne i k with rfl | hne
  · obtain rfl : conn = c := Option.some.inj (hk.symm.trans hi)
    refine ⟨conn', (on_connection_iff hk).mpr (Or.inl ⟨rfl, rfl⟩), ?_⟩
    rw [on_dialogue_self]
    exact h
  · refine ⟨c, (on_connection_iff hk).mpr (Or.inr ⟨hne, hi⟩), ?_⟩
    rw [on_dialogue_of_ne t hne]
    exact .refl c _

theorem grows_made (t : Traffic) : t.Grows t.made := fun _ conn hk =>
  ⟨conn, getElem?_concat_eq_some_iff.mpr (Or.inr hk), .refl conn _⟩

/-- An answer stays the answer to its call. -/
theorem Answered.grows {request : Request} {answer : Answer} (h : t.Answered x request answer)
    (hg : t.Grows t') : t'.Answered x request answer := by
  obtain ⟨k, conn, line, said, hk, hasker, hreply, hend, hgives⟩ := h
  obtain ⟨conn', hk', hgrows⟩ := hg k conn hk
  obtain ⟨hreply', hend'⟩ := hgrows.final _ hreply hend
  have hlt := (List.getElem?_eq_some_iff.mp hasker).1
  refine ⟨k, conn', line, said, hk', ?_, hreply', hend', hgives⟩
  obtain ⟨more, hmore⟩ := hgrows.asked
  rw [askers, ← hmore]
  exact (List.getElem?_append_left hlt).trans hasker

/-- What a call without its turn needs is kept whatever passes on the connections. -/
theorem Fits.grows (h : t.Fits x e) (hturn : e.phase.hasTurn = false) (hg : t.Grows t') :
    t'.Fits x e := by
  obtain ⟨request, phase⟩ := e
  cases phase with
  | waiting => trivial
  | connecting => cases hturn
  | writing k => cases hturn
  | reading k => cases hturn
  | done answer => exact h.imp_right fun hown => hown.grows hg

/-- Connections that are kept or in use are settled, or await the answer of the call that uses
them. -/
structure Calls (t : Traffic) : Prop where
  kept : ∀ k, t.channel.kept = some k → t.SettledAt k
  fits : ∀ (x : Nat) (e : Exchange), t.channel.exchanges[x]? = some e → t.Fits x e

/-- What holds of a connection and its dialogue holds on after they change, if the change keeps
it. -/
theorem exists_on {P : Dialogue → Connection → Prop} {i : Nat}
    (h : ∃ c, t.channel.connections[i]? = some c ∧ P (t.dialogue i) c)
    (hk : t.channel.connections[k]? = some conn) (hP : P (t.dialogue k) conn → P d conn') :
    ∃ c, (t.on k conn' d).channel.connections[i]? = some c ∧ P ((t.on k conn' d).dialogue i) c := by
  obtain ⟨c, hi, hc⟩ := h
  rcases eq_or_ne i k with rfl | hne
  · obtain rfl : conn = c := Option.some.inj (hk.symm.trans hi)
    refine ⟨conn', (on_connection_iff hk).mpr (Or.inl ⟨rfl, rfl⟩), ?_⟩
    rw [on_dialogue_self]
    exact hP hc
  · refine ⟨c, (on_connection_iff hk).mpr (Or.inr ⟨hne, hi⟩), ?_⟩
    rw [on_dialogue_of_ne t hne]
    exact hc

/-- A connection is settled whose new state is. -/
theorem settledAt_on (hk : t.channel.connections[k]? = some conn) (h : d.Settled conn') :
    (t.on k conn' d).SettledAt k := by
  refine ⟨conn', (on_connection_iff hk).mpr (Or.inl ⟨rfl, rfl⟩), ?_⟩
  rw [on_dialogue_self]
  exact h

/-- A connection awaits an answer whose new state does. -/
theorem awaitingAt_on {request : Request} (hk : t.channel.connections[k]? = some conn)
    (h : d.Awaiting x request conn') : (t.on k conn' d).AwaitingAt x request k := by
  refine ⟨conn', (on_connection_iff hk).mpr (Or.inl ⟨rfl, rfl⟩), ?_⟩
  rw [on_dialogue_self]
  exact h

/-- An act of the engine that leaves settled connections settled and awaiting ones awaiting. -/
theorem Calls.on (h : Calls t) (hk : t.channel.connections[k]? = some conn)
    (hgrows : Dialogue.Grows conn (t.dialogue k) conn' d)
    (hsettled : (t.dialogue k).Settled conn → d.Settled conn')
    (hawaiting : ∀ x request, (t.dialogue k).Awaiting x request conn →
      d.Awaiting x request conn') : Calls (t.on k conn' d) := by
  refine ⟨fun i hi => exists_on (P := (·.Settled)) (h.kept i hi) hk hsettled, fun x e hx => ?_⟩
  have hfits := h.fits x e hx
  obtain ⟨request, phase⟩ := e
  cases phase with
  | waiting => trivial
  | connecting => trivial
  | writing i => exact exists_on (P := (·.Settled)) hfits hk hsettled
  | reading i => exact exists_on (P := (·.Awaiting x request)) hfits hk (hawaiting x request)
  | done answer => exact hfits.imp_right fun hown => hown.grows (grows_on hk hgrows)

/-- A step of one call on top of what passes on the connections. -/
theorem calls_turn {s : Traffic} (h : Calls t) (hsame : s.channel.exchanges = t.channel.exchanges)
    (hx : t.channel.exchanges[x]? = some e)
    (hothers : ∀ (y : Nat) (f : Exchange), y ≠ x → t.channel.exchanges[y]? = some f →
      f.phase.hasTurn = false)
    (hgrows : t.Grows s) (hfits : s.Fits x { e with phase })
    (hkept : ∀ k, kept = some k → s.SettledAt k) : Calls (s.turn x e phase kept) := by
  refine ⟨hkept, fun y f hy => ?_⟩
  rw [← hsame] at hx
  rcases (turn_exchange_iff hx).mp hy with ⟨rfl, rfl⟩ | ⟨hne, hy⟩
  · exact hfits
  · rw [hsame] at hy
    exact (h.fits y f hy).grows (hothers y f hne hy) hgrows

/-- A call that fails without touching its connection. -/
theorem Calls.fail (h : Calls t) (hx : t.channel.exchanges[x]? = some e) (fault : ChannelFault) :
    Calls (t.turn x e (.done (e.request.nullAnswer fault)) t.channel.kept) := by
  refine ⟨h.kept, fun y f hy => ?_⟩
  rcases (turn_exchange_iff hx).mp hy with ⟨rfl, rfl⟩ | ⟨-, hy⟩
  · exact Or.inl ⟨fault, rfl⟩
  · exact h.fits y f hy

theorem awaitingAt_self (h : t.Fits x e) (hphase : e.phase = .reading k)
    (hk : t.channel.connections[k]? = some conn) :
    (t.dialogue k).Awaiting x e.request conn := by
  obtain ⟨request, phase⟩ := e
  cases hphase
  obtain ⟨c, hc, hawaiting⟩ := h
  obtain rfl : conn = c := Option.some.inj (hk.symm.trans hc)
  exact hawaiting

theorem settledAt_self (h : t.Fits x e) (hphase : e.phase = .writing k)
    (hk : t.channel.connections[k]? = some conn) : (t.dialogue k).Settled conn := by
  obtain ⟨request, phase⟩ := e
  cases hphase
  obtain ⟨c, hc, hsettled⟩ := h
  obtain rfl : conn = c := Option.some.inj (hk.symm.trans hc)
  exact hsettled

/-! ### The invariant -/

/-- The invariant of the traffic on a channel. -/
structure Sound (t : Traffic) : Prop where
  lock : Lock t.channel.exchanges t.channel.kept
  transport : Transport t
  asks : Asks t.channel.exchanges t.askers
  calls : Calls t

theorem Transport.read (h : Transport t) (hk : t.channel.connections[k]? = some conn)
    (rest : Bytes) : Transport (t.on k { conn with unread := rest } (t.dialogue k)) := by
  have hheard := h.heard k conn hk
  exact h.on hk ⟨hheard.received, hheard.answered, hheard.ordered⟩

theorem Sound.transport_happens (hs : Sound t) (h : Happens t t') : Transport t' := by
  have ht := hs.transport
  cases h with
  | called request => exact ⟨ht.unmade, ht.heard⟩
  | took hx hphase hfree hkept => exact ⟨ht.unmade, ht.heard⟩
  | began hx hphase hfree hkept => exact ⟨ht.unmade, ht.heard⟩
  | connected hx hphase => exact ⟨ht.made.unmade, ht.made.heard⟩
  | failed fault hx hphase => exact ⟨ht.unmade, ht.heard⟩
  | @wrote x k e conn hx hphase hk =>
      have harrived := (settledAt_self (hs.calls.fits x e hx) hphase hk).arrived
      have hheard : ((t.dialogue k).ask x e.request).Heard _ :=
        (ht.heard k conn hk).ask harrived x List.prefix_rfl
      have hon := ht.on hk hheard
      exact ⟨hon.unmade, hon.heard⟩
  | @stopped x k e conn bytes fault hx hphase hk hbytes =>
      have harrived := (settledAt_self (hs.calls.fits x e hx) hphase hk).arrived
      have hon := ht.on hk ((ht.heard k conn hk).ask harrived x hbytes)
      exact ⟨hon.unmade, hon.heard⟩
  | @answered x k e conn answer rest hx hphase hk hanswer =>
      have hread := ht.read hk rest
      exact ⟨hread.unmade, hread.heard⟩
  | @disappointed x k e conn fault rest hx hphase hk =>
      have hread := ht.read hk rest
      exact ⟨hread.unmade, hread.heard⟩
  | @replied k line conn bytes d hk hopen hsay => exact ht.on hk ((ht.heard k conn hk).say hsay)
  | @hungUp k conn hk =>
      have hheard := ht.heard k conn hk
      exact ht.on hk ⟨hheard.received, hheard.answered, hheard.ordered⟩

theorem Sound.calls_happens (hs : Sound t) (h : Happens t t') : Calls t' := by
  have hc := hs.calls
  cases h with
  | called request =>
      refine ⟨hc.kept, fun y f hy => ?_⟩
      rcases getElem?_concat_eq_some_iff.mp hy with ⟨-, rfl⟩ | hy
      · trivial
      · exact hc.fits y f hy
  | @took x k e hx hphase hfree hkept =>
      exact calls_turn hc rfl hx (fun _ _ _ hy => hasTurn_of_isFree hfree hy) (.refl t)
        (hc.kept k hkept) (fun _ hnone => by cases hnone)
  | began hx hphase hfree hkept =>
      exact calls_turn hc rfl hx (fun _ _ _ hy => hasTurn_of_isFree hfree hy) (.refl t) trivial
        (fun _ hnone => by cases hnone)
  | @connected x e hx hphase =>
      have hturn := congrArg ExchangePhase.hasTurn hphase
      -- nobody has said anything yet on the connection that is made now
      have hsilent := hs.transport.unmade _ (Nat.le_refl _)
      refine calls_turn hc rfl hx (hs.lock.others hx hturn) (grows_made t) ?_
        fun k hk => absurd hk (hs.lock.kept_ne_some hx hturn k)
      refine ⟨.fresh, getElem?_concat_eq_some_iff.mpr (Or.inl ⟨rfl, rfl⟩), ?_⟩
      show (t.dialogue _).Settled .fresh
      rw [hsilent]
      exact Dialogue.settled_fresh
  | failed fault hx hphase => exact hc.fail hx fault
  | @wrote x k e conn hx hphase hk =>
      have hturn := congrArg ExchangePhase.hasTurn hphase
      have hsettled := settledAt_self (hc.fits x e hx) hphase hk
      exact calls_turn hc rfl hx (hs.lock.others hx hturn)
        (grows_on hk (Dialogue.grows_ask conn _ _ x e.request))
        (awaitingAt_on hk (hsettled.ask x e.request))
        fun i hi => absurd hi (hs.lock.kept_ne_some hx hturn i)
  | @stopped x k e conn bytes fault hx hphase hk hbytes =>
      have hturn := congrArg ExchangePhase.hasTurn hphase
      exact calls_turn hc rfl hx (hs.lock.others hx hturn)
        (grows_on hk (Dialogue.grows_ask conn _ bytes x e.request)) (Or.inl ⟨fault, rfl⟩)
        fun i hi => absurd hi (hs.lock.kept_ne_some hx hturn i)
  | @answered x k e conn answer rest hx hphase hk hanswer =>
      have hturn := congrArg ExchangePhase.hasTurn hphase
      have hawaiting := awaitingAt_self (hc.fits x e hx) hphase hk
      obtain ⟨⟨line, said, hasker, hreply, hend, hgives⟩, hsettled⟩ := hawaiting.answer hanswer
      have hgrows : t.Grows (t.on k { conn with unread := rest } (t.dialogue k)) :=
        grows_on hk (Dialogue.grows_read conn _ rest)
      refine calls_turn hc rfl hx (hs.lock.others hx hturn) hgrows (Or.inr ?_) ?_
      · exact Answered.grows ⟨k, conn, line, said, hk, hasker, hreply, hend, hgives⟩ hgrows
      · -- with its own answer read, the connection may be kept
        rintro i ⟨⟩
        exact settledAt_on hk hsettled
  | @disappointed x k e conn fault rest hx hphase hk =>
      have hturn := congrArg ExchangePhase.hasTurn hphase
      exact calls_turn hc rfl hx (hs.lock.others hx hturn)
        (grows_on hk (Dialogue.grows_read conn _ rest)) (Or.inl ⟨fault, rfl⟩)
        fun i hi => absurd hi (hs.lock.kept_ne_some hx hturn i)
  | replied hk hopen hsay =>
      refine hc.on hk (Dialogue.grows_say hopen hsay) (fun hsettled => ?_)
        fun x request hawaiting => hawaiting.say hopen hsay
      -- nothing is left to answer on a settled connection
      rw [hsettled.say?_eq_none hopen] at hsay
      cases hsay
  | @hungUp k conn hk =>
      exact hc.on hk (Dialogue.grows_hangUp conn _) (fun hsettled => hsettled.hangUp)
        fun x request hawaiting => hawaiting.hangUp

theorem Sound.writesSomewhere (hs : Sound t) : WritesSomewhere t.channel := by
  intro x e k hx hphase
  have hfits := hs.calls.fits x e hx
  obtain ⟨request, phase⟩ := e
  cases hphase
  obtain ⟨conn, hk, -⟩ := hfits
  exact ⟨conn, hk⟩

/-- **Every event keeps the invariant.** -/
theorem Sound.step {event : Event} (hs : Sound t) (h : t.step? event = some t') : Sound t' := by
  have hhappens := happens_of_step? hs.writesSomewhere h
  exact ⟨hs.lock.happens hhappens, hs.transport_happens hhappens, hs.asks.happens hhappens,
    hs.calls_happens hhappens⟩

theorem sound_unused : Sound unused where
  lock := ⟨fun _ _ _ _ hx => (by simp [unused, Channel.unused] at hx), fun hsome => by
    cases hsome⟩
  transport := ⟨fun _ _ => rfl, fun _ _ hk => by simp [unused, Channel.unused] at hk⟩
  asks := ⟨fun _ _ ha => absurd ha List.not_mem_nil, fun _ _ _ _ _ _ _ hj => by
    simp [askers, unused, Dialogue.silent] at hj⟩
  calls := ⟨fun _ hnone => (by cases hnone), fun _ _ hx => by
    simp [unused, Channel.unused] at hx⟩

theorem Sound.run {events : List Event} (hs : Sound t) (h : t.run? events = some t') :
    Sound t' := by
  induction events generalizing t with
  | nil =>
      cases h
      exact hs
  | cons event events ih =>
      rw [run?, List.foldlM_cons] at h
      obtain ⟨s, hstep, hrest⟩ := Option.bind_eq_some_iff.mp h
      exact ih (hs.step hstep) hrest

/-! ### Answers and connections -/

/-- The engine's reply to a call: the call wrote its request to a connection, the engine received it
there as one of its lines, and said the reply in answer to that line. -/
def IsReply (t : Traffic) (x : Nat) (request : Request) (reply : Bytes) : Prop :=
  ∃ k conn line, t.channel.connections[k]? = some conn ∧
    (t.askers k)[line]? = some (x, request) ∧
    (Stream.lines conn.received)[line]? = some (WireMessage.encode request) ∧
    (line, reply) ∈ (t.dialogue k).replies

theorem Sound.isReply (hs : Sound t) {request : Request} {answer : Answer}
    (h : t.Answered x request answer) :
    ∃ reply, t.IsReply x request reply ∧ request.answerOf? reply = some answer := by
  obtain ⟨k, conn, line, said, hk, hasker, hreply, -, hgives⟩ := h
  have hheard := hs.transport.heard k conn hk
  have hlines := Dialogue.getElem?_lines hheard.received (hheard.answered _ hreply)
  have hrequest : (t.dialogue k).askers[line]? = some (x, request) := hasker
  rw [hrequest] at hlines
  exact ⟨said, ⟨k, conn, line, hk, hasker, hlines, hreply⟩, hgives⟩

/-- No call has two replies: it wrote to one connection once, and no line is answered twice. -/
theorem Sound.eq_of_isReply (hs : Sound t) {request request' : Request} {reply reply' : Bytes}
    (h : t.IsReply x request reply) (h' : t.IsReply x request' reply') : reply = reply' := by
  obtain ⟨k, conn, line, hk, hasker, -, hreply⟩ := h
  obtain ⟨k', conn', line', hk', hasker', -, hreply'⟩ := h'
  obtain ⟨rfl, rfl⟩ := hs.asks.once x request request' k k' line line' hasker hasker'
  -- the two replies are to one line of one connection
  have hordered := (hs.transport.heard k conn hk).ordered
  have hnodup : ((t.dialogue k).replies.map Prod.fst).Nodup :=
    hordered.imp fun hlt => Nat.ne_of_gt hlt
  exact congrArg Prod.snd (List.inj_on_of_nodup_map hnodup hreply hreply' rfl)

/-- A call that has not ended can run out of time at any moment. -/
theorem exists_step?_expire (hx : t.channel.exchanges[x]? = some e)
    (hphase : ∀ answer, e.phase ≠ .done answer) (written : Nat) :
    ∃ t', t.step? (.node (.expire x written)) = some t' ∧
      t'.channel.exchanges[x]? = some { e with phase := .done (e.request.nullAnswer .late) } := by
  have hset : (t.channel.exchanges.set x
      { e with phase := .done (e.request.nullAnswer .late) })[x]? =
        some { e with phase := .done (e.request.nullAnswer .late) } :=
    (getElem?_set_eq_some_iff hx).mpr (Or.inl ⟨rfl, rfl⟩)
  have hstep : ∃ c, t.channel.step? (.expire x written) = some c ∧
      c.exchanges = t.channel.exchanges.set x
        { e with phase := .done (e.request.nullAnswer .late) } := by
    obtain ⟨request, phase⟩ := e
    rw [Channel.step?, hx]
    cases phase with
    | waiting => exact ⟨_, rfl, rfl⟩
    | connecting => exact ⟨_, rfl, rfl⟩
    | writing k => exact ⟨_, rfl, rfl⟩
    | reading k => exact ⟨_, rfl, rfl⟩
    | done answer => exact absurd rfl (hphase answer)
  obtain ⟨c, hc, hexchanges⟩ := hstep
  refine ⟨⟨c, t.asked (.expire x written)⟩, ?_, ?_⟩
  · show (t.channel.step? (.expire x written)).map _ = _
    rw [hc]
    rfl
  · show c.exchanges[x]? = _
    rw [hexchanges]
    exact hset

/-- Whatever text a missing answer has, it may be asked for again. -/
theorem verdict_null (detail : String) :
    Response.verdict (Response.null detail : WriteResponse) = .retryable ∧
      Response.verdict (Response.null detail : QueryResponse) = .retryable := by
  have hcontains :
      Text.contains (if detail.isEmpty then nullText else nullText ++ ": " ++ detail).toList
        nullText.toList = true := by
    refine (Text.contains_iff _ _).mpr ?_
    split
    · exact ⟨[], [], by simp⟩
    · exact ⟨[], (": " ++ detail).toList, by simp [String.toList_append]⟩
  have hverdict : Verdict.of (some .unknown)
      (if detail.isEmpty then nullText else nullText ++ ": " ++ detail) = .retryable := by
    rw [Verdict.of, ErrorCode.isTransient, hcontains]
    rfl
  exact ⟨hverdict, hverdict⟩

/-- **Every call returns the answer that the reply to its own request gives, or a missing one.**
In every course of the traffic: a call that has ended returns one of the two, and no call has more
than one reply; one that has not can run out of time at any moment, with any part of its request
written. A connection that is kept is settled: every request written to it was answered, and every
answer was read. A missing answer may be asked for again, whatever its text. -/
theorem answers_are_own (events : List Event) (t : Traffic) (h : unused.run? events = some t) :
    (∀ (x : Nat) (e : Exchange), t.channel.exchanges[x]? = some e →
      match e.phase with
      | .done answer =>
        (∃ fault, answer = e.request.nullAnswer fault) ∨
          ∃ reply, t.IsReply x e.request reply ∧ e.request.answerOf? reply = some answer ∧
            ∀ r other, t.IsReply x r other → other = reply
      | _ => ∀ written, ∃ t', t.step? (.node (.expire x written)) = some t' ∧
        t'.channel.exchanges[x]? = some { e with phase := .done (e.request.nullAnswer .late) }) ∧
    (∀ k, t.channel.kept = some k → t.channel.isFree = true ∧ t.SettledAt k) ∧
    ∀ detail, Response.verdict (Response.null detail : WriteResponse) = .retryable ∧
      Response.verdict (Response.null detail : QueryResponse) = .retryable := by
  have hs := sound_unused.run h
  refine ⟨fun x e hx => ?_, fun k hk => ⟨?_, hs.calls.kept k hk⟩, verdict_null⟩
  · have hfits := hs.calls.fits x e hx
    have hexpire := fun hopen => exists_step?_expire hx hopen
    obtain ⟨request, phase⟩ := e
    cases phase with
    | done answer =>
        refine hfits.imp_right fun hown => ?_
        obtain ⟨reply, hreply, hgives⟩ := hs.isReply hown
        exact ⟨reply, hreply, hgives, fun r other hother => hs.eq_of_isReply hother hreply⟩
    | waiting => exact hexpire fun _ hdone => by cases hdone
    | connecting => exact hexpire fun _ hdone => by cases hdone
    | writing k => exact hexpire fun _ hdone => by cases hdone
    | reading k => exact hexpire fun _ hdone => by cases hdone
  · refine List.all_eq_true.mpr fun e he => ?_
    obtain ⟨x, hx⟩ := List.mem_iff_getElem?.mp he
    rw [hs.lock.free (by rw [hk]; rfl) x e hx]
    rfl

/-- A reply that comes late, when its call has run out of time and dropped its connection, is not
the answer of the next call. -/
theorem answers_are_own_after_late_reply :
    let first : Request := .write ⟨"t", 0, "a"⟩
    let second : Request := .write ⟨"t", 65535, "b"⟩
    let late : Bytes := WireMessage.encode (⟨none, ""⟩ : WriteResponse)
    let own : Bytes := WireMessage.encode (⟨some .others, "doc queue is full"⟩ : WriteResponse)
    let events : List Event := [.node (.call first), .node (.take 0), .node (.connect 0 true),
      .node (.call second), .node (.write 0 none), .node (.expire 0 0), .node (.take 1),
      .node (.connect 1 true), .node (.write 1 none), .reply 0 0 late, .reply 1 0 own,
      .node (.read 1)]
    ∃ t, unused.run? events = some t ∧ t.channel.kept = some 1 ∧ t.SettledAt 1 ∧
      t.channel.exchanges = [⟨first, .done (first.nullAnswer .late)⟩,
        ⟨second, .done (.write ⟨some .others, "doc queue is full"⟩)⟩] ∧
      ∃ reply, t.IsReply 1 second reply ∧
        second.answerOf? reply = some (.write ⟨some .others, "doc queue is full"⟩) := by
  intro first second late own events
  have hrun : (unused.run? events).map (fun t => (t.channel.kept, t.channel.exchanges)) =
      some (some 1, [⟨first, .done (first.nullAnswer .late)⟩,
        ⟨second, .done (.write ⟨some .others, "doc queue is full"⟩)⟩]) := by
    decide +kernel
  obtain ⟨t, ht, hend⟩ := Option.map_eq_some_iff.mp hrun
  have hkept : t.channel.kept = some 1 := congrArg Prod.fst hend
  have hexchanges := congrArg Prod.snd hend
  dsimp only at hexchanges
  obtain ⟨hanswers, hsettled, -⟩ := answers_are_own events t ht
  refine ⟨t, ht, hkept, (hsettled 1 hkept).2, hexchanges, ?_⟩
  have hsecond := hanswers 1 _ (by rw [hexchanges]; rfl)
  rcases hsecond with ⟨fault, hnull⟩ | ⟨reply, hreply, hgives, -⟩
  -- the call has ended with a code that no missing answer has
  · cases fault <;> exact absurd hnull (by decide)
  · exact ⟨reply, hreply, hgives⟩

end Traffic

end ShardKeeper
