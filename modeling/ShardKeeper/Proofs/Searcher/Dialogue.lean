import Mathlib.Data.List.TakeWhile
import ShardKeeper.Proofs.Searcher.Stream
import ShardKeeper.Searcher.Channel

/-!
# Dialogues on a connection

What passes on one connection to the engine: calls write their requests to it, and the
engine answers each line that it has received with one line at most, in the order of
the requests, after any delay and in any pieces.  Nothing in an answer names its
request, so an answer belongs to a request by its place alone.

## Main definitions

* `Dialogue` — the calls that wrote to a connection, and the replies to their lines.
* `Dialogue.say?` — the engine says more, if it may.
* `Dialogue.Settled` — every request was answered, and every answer was read.
* `Dialogue.Awaiting` — the same, but for the request of one call.

## Main results

* `Dialogue.Settled.ask` — a request leaves its call awaiting the answer.
* `Dialogue.Settled.say?_eq_none` — on a settled connection the engine has nothing to say.
* `Dialogue.Awaiting.say` — what it says to a call that waits is the reply to that call.
* `Dialogue.Awaiting.answer` — the call reads that reply and leaves the connection settled.

## Design notes

A reply that was sent and has not arrived is the same, for the node, as one that was not
sent yet.  So what the engine says counts from its arrival; as a connection keeps the
order of its bytes, nothing arrives on it after the engine was seen to hang up.
-/

namespace ShardKeeper

/-- What passed on one connection. -/
structure Dialogue where
  /-- The calls that wrote to it, in order, with their requests. -/
  askers : List (Nat × Request)
  /-- What the engine has said, latest first: each reply with the number of the line that it
  answers. -/
  replies : List (Nat × Bytes)

/-- The answer that a line gives to a request, if it gives one. -/
def Request.answerOf? (request : Request) (line : Bytes) : Option Answer :=
  match request with
  | .write _ =>
    match (Stream.decodeLine line : Option (Except Stream.Fault WriteResponse)) with
    | some (.ok response) => some (.write response)
    | _ => none
  | .query _ =>
    match (Stream.decodeLine line : Option (Except Stream.Fault QueryResponse)) with
    | some (.ok response) => some (.query response)
    | _ => none

/-! ### Reading one line -/

section Reading

variable {α : Type} [WireMessage α] {k : Connection} {message : α} {rest : Bytes}

/-- Bytes with a line feed at their end at most are a line with its line feed, or without. -/
theorem Stream.nextLine_of_notMem_dropLast {bytes : Bytes} (h : 0x0A ∉ bytes.dropLast) :
    nextLine bytes = (bytes, []) := by
  rcases List.eq_nil_or_concat bytes with rfl | ⟨body, b, rfl⟩
  · rfl
  · rw [List.concat_eq_append] at h ⊢
    rw [List.dropLast_concat] at h
    by_cases hb : b = 0x0A
    · have hline := nextLine_of_isLine ⟨body, h, rfl⟩ []
      rw [List.append_nil] at hline
      rw [hb]
      exact hline
    · refine nextLine_of_notMem fun hmem => ?_
      rcases List.mem_append.mp hmem with hmem | hmem
      · exact h hmem
      · exact hb (List.mem_singleton.mp hmem).symm

/-- One line yields the message that it says, and leaves nothing. -/
theorem Stream.read_of_notMem_dropLast {bytes : Bytes} (h : 0x0A ∉ bytes.dropLast)
    (hread : read bytes = (.ok message, rest)) :
    decodeLine bytes = some (.ok message) ∧ rest = [] := by
  have hline := nextLine_of_notMem_dropLast h
  cases bytes with
  | nil =>
      rw [read] at hread
      cases hread
  | cons b tail =>
      rw [read, hline] at hread
      split at hread
      · rename_i hdecode
        cases hread
        exact ⟨hdecode, rfl⟩
      · rw [read] at hread
        cases hread

namespace Connection

/-- What is unread stands before the last line feed or behind it. -/
theorem splitUnread_of_notMem_dropLast (h : 0x0A ∉ k.unread.dropLast) :
    (0x0A ∈ k.unread ∧ k.splitUnread = (k.unread, [])) ∨ k.splitUnread = ([], k.unread) := by
  rcases List.eq_nil_or_concat k.unread with hnil | ⟨body, b, hbody⟩
  · refine Or.inr ?_
    rw [splitUnread, hnil]
    rfl
  · rw [hbody, List.concat_eq_append, List.dropLast_concat] at h
    rw [splitUnread, hbody, List.concat_eq_append, List.reverse_append, List.reverse_singleton,
      List.singleton_append]
    by_cases hb : b = 0x0A
    · refine Or.inl ⟨by rw [hb]; exact List.mem_append_right body List.mem_cons_self, ?_⟩
      simp [hb]
    · have hall : ∀ c ∈ b :: body.reverse, (fun c : UInt8 => decide (c ≠ 0x0A)) c = true := by
        intro c hc
        rw [decide_eq_true_eq]
        rintro rfl
        rcases List.mem_cons.mp hc with hc | hc
        · exact hb hc.symm
        · exact h (List.mem_reverse.mp hc)
      refine Or.inr ?_
      rw [List.takeWhile_eq_self_iff.mpr hall, List.dropWhile_eq_nil_iff.mpr hall]
      simp

/-- A message that was read from one line is what the whole line says. -/
theorem read?_eq_ok (hline : 0x0A ∉ k.unread.dropLast)
    (h : k.read? = some (.ok message, rest)) :
    Stream.decodeLine k.unread = some (.ok message) ∧ rest = [] ∧
      (k.hungUp = true ∨ 0x0A ∈ k.unread) := by
  rw [read?] at h
  cases hhung : k.hungUp with
  | true =>
      rw [hhung, if_pos rfl] at h
      obtain ⟨hdecode, hrest⟩ := Stream.read_of_notMem_dropLast hline (Option.some.inj h)
      exact ⟨hdecode, hrest, Or.inl rfl⟩
  | false =>
      rw [hhung, if_neg Bool.false_ne_true] at h
      rcases splitUnread_of_notMem_dropLast hline with ⟨hmem, hsplit⟩ | hsplit
      · rw [hsplit] at h
        split at h
        · cases h
        · rename_i result left hnot hread
          simp only [List.append_nil, Option.some.injEq, Prod.mk.injEq] at h
          obtain ⟨rfl, rfl⟩ := h
          obtain ⟨hdecode, hrest⟩ := Stream.read_of_notMem_dropLast hline hread
          exact ⟨hdecode, hrest, Or.inr hmem⟩
      · have hnothing : Stream.read (α := α) [] = (.error .closed, []) := by
          rw [Stream.read]
        rw [hsplit, hnothing] at h
        cases h

/-- An answer that was read from one line is the one that the whole line gives. -/
theorem answer?_eq_ok {request : Request} {answer : Answer} (hline : 0x0A ∉ k.unread.dropLast)
    (h : k.answer? request = some (.ok answer, rest)) :
    request.answerOf? k.unread = some answer ∧ rest = [] ∧
      (k.hungUp = true ∨ 0x0A ∈ k.unread) := by
  cases request with
  | write r =>
      rw [answer?, Option.map_eq_some_iff] at h
      obtain ⟨⟨result, left⟩, hread, hpair⟩ := h
      cases result with
      | error fault => cases hpair
      | ok response =>
          cases hpair
          obtain ⟨hdecode, hrest, hend⟩ := read?_eq_ok hline hread
          refine ⟨?_, hrest, hend⟩
          rw [Request.answerOf?, hdecode]
  | query r =>
      rw [answer?, Option.map_eq_some_iff] at h
      obtain ⟨⟨result, left⟩, hread, hpair⟩ := h
      cases result with
      | error fault => cases hpair
      | ok response =>
          cases hpair
          obtain ⟨hdecode, hrest, hend⟩ := read?_eq_ok hline hread
          refine ⟨?_, hrest, hend⟩
          rw [Request.answerOf?, hdecode]

end Connection

end Reading

/-- Where nothing was said, nothing is an answer. -/
theorem Request.answerOf?_nil (request : Request) : request.answerOf? [] = none := by
  have hblank : ∀ {α : Type} [WireMessage α],
      (Stream.decodeLine [] : Option (Except Stream.Fault α)) = none := by
    intro α _
    have htext : Utf8.decode? [] = some [] := Utf8.decode?_encode []
    rw [Stream.decodeLine, htext]
    rfl
  cases request <;> rw [answerOf?, hblank]

/-- A connection after bytes were written to it. -/
def Connection.receive (k : Connection) (bytes : Bytes) : Connection :=
  if k.hungUp then k else { k with received := k.received ++ bytes }

theorem Connection.receive_cases (k : Connection) (bytes : Bytes) :
    (k.receive bytes).hungUp = k.hungUp ∧ (k.receive bytes).unread = k.unread ∧
      ((k.hungUp = true ∧ (k.receive bytes).received = k.received) ∨
        (k.hungUp = false ∧ (k.receive bytes).received = k.received ++ bytes)) := by
  rw [receive]
  split
  · rename_i hover
    exact ⟨rfl, rfl, Or.inl ⟨hover, rfl⟩⟩
  · rename_i hopen
    exact ⟨rfl, rfl, Or.inr ⟨Bool.eq_false_iff.mpr hopen, rfl⟩⟩

/-! ### What the engine may say -/

namespace Dialogue

/-- Nothing was written or said. -/
def silent : Dialogue := ⟨[], []⟩

/-- Another call sets about writing its request. -/
def ask (d : Dialogue) (number : Nat) (request : Request) : Dialogue :=
  { d with askers := d.askers ++ [(number, request)] }

/-- The engine says `bytes` in answer to a line, if it may: it has received the line, it says no
more than one line, and it has answered no later line; what it has begun to say to another line is
complete. -/
def say? (d : Dialogue) (received : Bytes) (line : Nat) (bytes : Bytes) : Option Dialogue :=
  if received.count 0x0A ≤ line ∨ 0x0A ∈ bytes.dropLast then none
  else
    match d.replies with
    | [] => some { d with replies := [(line, bytes)] }
    | (latest, said) :: older =>
      if 0x0A ∈ said then
        if latest < line then some { d with replies := (line, bytes) :: d.replies } else none
      else if latest = line then some { d with replies := (line, said ++ bytes) :: older }
      else none

/-- All requests, one after the other. -/
def transcript (d : Dialogue) : Bytes := d.askers.flatMap fun a => WireMessage.encode a.2

variable {d d' : Dialogue} {k : Connection} {received bytes : Bytes} {line number : Nat}
  {request : Request}

/-- What the engine says is a new reply, or goes on with the latest one. -/
theorem say?_cases (h : d.say? received line bytes = some d') :
    line < received.count 0x0A ∧ d'.askers = d.askers ∧
      ((∃ said older, d.replies = (line, said) :: older ∧ 0x0A ∉ said ∧
          0x0A ∉ (said ++ bytes).dropLast ∧ d'.replies = (line, said ++ bytes) :: older) ∨
        ((∀ r ∈ d.replies.head?, 0x0A ∈ r.2 ∧ r.1 < line) ∧ 0x0A ∉ bytes.dropLast ∧
          d'.replies = (line, bytes) :: d.replies)) := by
  obtain ⟨askers, replies⟩ := d
  rw [say?] at h
  split at h
  · cases h
  · rename_i hmay
    rw [not_or, Nat.not_le] at hmay
    refine ⟨hmay.1, ?_⟩
    dsimp only at h
    split at h
    · cases h
      exact ⟨rfl, Or.inr ⟨by simp, hmay.2, rfl⟩⟩
    · rename_i latest said older
      split at h
      · rename_i hwhole
        split at h
        · rename_i hlater
          cases h
          refine ⟨rfl, Or.inr ⟨?_, hmay.2, rfl⟩⟩
          intro r hr
          obtain rfl := Option.some.inj hr
          exact ⟨hwhole, hlater⟩
        · cases h
      · rename_i hpart
        split at h
        · rename_i hsame
          cases h
          subst hsame
          refine ⟨rfl, Or.inl ⟨said, older, rfl, hpart, ?_, rfl⟩⟩
          rcases eq_or_ne bytes [] with rfl | hne
          · rw [List.append_nil]
            exact fun hmem => hpart (List.dropLast_subset said hmem)
          · rw [List.dropLast_append_of_ne_nil hne, List.mem_append]
            exact fun hmem => hmem.elim hpart hmay.2
        · cases h

/-! ### Requests on the way -/

theorem count_encode (request : Request) : (WireMessage.encode request).count 0x0A = 1 := by
  obtain ⟨body, hbody, hline⟩ := Stream.isLine_encode request
  rw [hline, List.count_append, List.count_eq_zero_of_not_mem hbody]
  rfl

/-- There are as many lines as requests. -/
theorem count_transcript (d : Dialogue) : d.transcript.count 0x0A = d.askers.length := by
  obtain ⟨askers, replies⟩ := d
  induction askers with
  | nil => rfl
  | cons a askers ih =>
      show (WireMessage.encode a.2 ++ transcript ⟨askers, replies⟩).count 0x0A = _
      rw [List.count_append, count_encode, ih, List.length_cons, Nat.add_comm]

theorem transcript_ask (d : Dialogue) (number : Nat) (request : Request) :
    (d.ask number request).transcript = d.transcript ++ WireMessage.encode request := by
  rw [transcript, ask, List.flatMap_append, List.flatMap_singleton]
  rfl

/-- What the engine has received is a beginning of the requests, and it answers lines that it has
received, each once. -/
structure Heard (k : Connection) (d : Dialogue) : Prop where
  received : k.received <+: d.transcript
  answered : ∀ r ∈ d.replies, r.1 < k.received.count 0x0A
  ordered : (d.replies.map Prod.fst).Pairwise (· > ·)

/-- Each line that the engine has received is a request, in their order. -/
theorem getElem?_lines (h : received <+: d.transcript) (hline : line < received.count 0x0A) :
    (Stream.lines received)[line]? = d.askers[line]?.map fun a => WireMessage.encode a.2 := by
  obtain ⟨askers, replies⟩ := d
  induction askers generalizing received line with
  | nil =>
      rw [List.prefix_nil.mp h] at hline
      cases hline
  | cons a askers ih =>
      have hisLine := Stream.isLine_encode a.2
      change received <+: WireMessage.encode a.2 ++ transcript ⟨askers, replies⟩ at h
      have hwhole : WireMessage.encode a.2 <+: received := by
        -- a part of the first request has no line feed, so it is no line
        rcases List.prefix_or_prefix_of_prefix h (List.prefix_append _ _) with hpart | hwhole
        · obtain ⟨body, hbody, hencode⟩ := hisLine
          rw [hencode] at hpart ⊢
          rcases List.prefix_concat_iff.mp hpart with rfl | hpart
          · exact List.prefix_rfl
          · have hnone : 0x0A ∉ received := fun hmem => hbody (hpart.subset hmem)
            rw [List.count_eq_zero_of_not_mem hnone] at hline
            cases hline
        · exact hwhole
      obtain ⟨rest, rfl⟩ := hwhole
      rw [List.count_append, count_encode] at hline
      rw [Stream.lines_append hisLine]
      cases line with
      | zero => rfl
      | succ line => exact ih (by omega) ((List.prefix_append_right_inj _).mp h)

/-! ### Settled connections -/

/-- The replies to all of some requests: one to each line, complete unless the engine has hung
up. -/
structure Covers (k : Connection) (askers : List (Nat × Request)) (replies : List (Nat × Bytes)) :
    Prop where
  lines : replies.map Prod.fst = (List.range askers.length).reverse
  whole : k.hungUp = true ∨ ∀ r ∈ replies, 0x0A ∈ r.2

/-- Every request has arrived, unless the engine has hung up. -/
def Arrived (k : Connection) (d : Dialogue) : Prop :=
  k.hungUp = true ∨ k.received = d.transcript

/-- Every request was answered, and every answer was read. -/
structure Settled (k : Connection) (d : Dialogue) : Prop where
  covers : Covers k d.askers d.replies
  arrived : Arrived k d
  read : k.unread = []

/-- Every request but the last one, that of a call, was answered, and what is unread is what the
engine has said in reply to that one. -/
def Awaiting (number : Nat) (request : Request) (k : Connection) (d : Dialogue) : Prop :=
  ∃ before older, d.askers = before ++ [(number, request)] ∧ Covers k before older ∧ Arrived k d ∧
    ((d.replies = older ∧ k.unread = []) ∨
      (d.replies = (before.length, k.unread) :: older ∧ 0x0A ∉ k.unread.dropLast))

theorem settled_fresh : Settled .fresh silent := ⟨⟨rfl, Or.inr (by simp [silent])⟩, Or.inr rfl, rfl⟩

theorem heard_fresh : Heard .fresh silent := ⟨List.prefix_rfl, by simp [silent], List.Pairwise.nil⟩

/-- A covering reply answers the line before, if there is one, and is complete. -/
theorem Covers.head {askers : List (Nat × Request)} {replies : List (Nat × Bytes)}
    (h : Covers k askers replies) (hopen : k.hungUp = false) {r : Nat × Bytes}
    (hr : r ∈ replies.head?) : r.1 + 1 = askers.length ∧ 0x0A ∈ r.2 := by
  obtain ⟨older, rfl⟩ : ∃ older, replies = r :: older := List.head?_eq_some_iff.mp hr
  have hwhole := h.whole.resolve_left (by rw [hopen]; exact Bool.false_ne_true)
  refine ⟨?_, hwhole r List.mem_cons_self⟩
  have hlines := h.lines
  rcases Nat.eq_zero_or_pos askers.length with hzero | hpos
  · rw [hzero] at hlines
    cases hlines
  · obtain ⟨n, hn⟩ := Nat.exists_eq_succ_of_ne_zero (Nat.pos_iff_ne_zero.mp hpos)
    rw [hn, List.range_succ, List.reverse_append] at hlines
    have hhead : r.1 = n := (List.cons.inj hlines).1
    rw [hn, hhead]

theorem Covers.nil_of_head? {askers : List (Nat × Request)} {replies : List (Nat × Bytes)}
    (h : Covers k askers replies) (hnone : replies = []) : askers = [] := by
  have hlines := congrArg List.length h.lines
  rw [hnone, List.length_reverse, List.length_range] at hlines
  exact List.length_eq_zero_iff.mp hlines.symm

/-- **On a settled connection the engine has nothing to say.** -/
theorem Settled.say?_eq_none (h : Settled k d) (hopen : k.hungUp = false) :
    d.say? k.received line bytes = none := by
  rw [Option.eq_none_iff_forall_ne_some]
  intro d' hsay
  have hreceived := h.arrived.resolve_left (by rw [hopen]; exact Bool.false_ne_true)
  obtain ⟨hline, -, hsaid⟩ := say?_cases hsay
  rw [hreceived, count_transcript] at hline
  rcases hsaid with ⟨said, older, hreplies, hpart, -⟩ | ⟨hhead, -⟩
  · have hlatest : (line, said) ∈ d.replies.head? := by
      rw [hreplies]
      rfl
    exact hpart (h.covers.head hopen hlatest).2
  · cases hreplies : d.replies with
    | nil =>
        rw [h.covers.nil_of_head? hreplies] at hline
        cases hline
    | cons r older =>
        have hlatest : r ∈ d.replies.head? := by
          rw [hreplies]
          rfl
        have hlast := (h.covers.head hopen hlatest).1
        have hlater := (hhead r hlatest).2
        omega

/-- A request leaves its call awaiting the answer. -/
theorem Settled.ask (h : Settled k d) (number : Nat) (request : Request) :
    Awaiting number request (k.receive (WireMessage.encode request)) (d.ask number request) := by
  obtain ⟨hhung, hunread, hreceived⟩ := k.receive_cases (WireMessage.encode request)
  refine ⟨d.askers, d.replies, rfl, ⟨h.covers.lines, hhung ▸ h.covers.whole⟩, ?_,
    Or.inl ⟨rfl, hunread.trans h.read⟩⟩
  rcases h.arrived with hover | harrived
  · exact Or.inl (hhung.trans hover)
  · rw [Arrived, transcript_ask, ← harrived]
    exact hreceived.imp (fun hover => hhung.trans hover.1) And.right

/-- **What the engine says to a call that waits is the reply to that call.** -/
theorem Awaiting.say (h : Awaiting number request k d) (hopen : k.hungUp = false)
    (hsay : d.say? k.received line bytes = some d') :
    Awaiting number request { k with unread := k.unread ++ bytes } d' := by
  obtain ⟨before, older, haskers, hcovers, harrived, hreplies⟩ := h
  have hreceived := harrived.resolve_left (by rw [hopen]; exact Bool.false_ne_true)
  obtain ⟨hline, hsame, hsaid⟩ := say?_cases hsay
  rw [hreceived, count_transcript, haskers, List.length_append, List.length_singleton] at hline
  have harrived' : Arrived { k with unread := k.unread ++ bytes } d' := by
    rw [Arrived, transcript, hsame]
    exact harrived
  refine ⟨before, older, hsame.trans haskers, ⟨hcovers.lines, hcovers.whole⟩, harrived', ?_⟩
  rcases hreplies with ⟨hreplies, hunread⟩ | ⟨hreplies, hone⟩
  -- Nothing was said to the call so far: to go on with an older reply is not possible.
  · rw [hreplies] at hsaid
    rcases hsaid with ⟨said, rest, hlatest, hpart, -⟩ | ⟨hhead, hone, hnew⟩
    · exact absurd (hcovers.head hopen (by rw [hlatest]; rfl)).2 hpart
    · have hat : line = before.length := by
        cases older with
        | nil =>
            rw [hcovers.nil_of_head? rfl] at hline ⊢
            exact Nat.lt_one_iff.mp hline
        | cons r older =>
            have hlast := (hcovers.head hopen (r := r) rfl).1
            have hlater := (hhead r rfl).2
            omega
      refine Or.inr ⟨?_, ?_⟩
      · rw [hnew, hat, hunread]
        rfl
      · rw [hunread]
        exact hone
  -- The reply to the call has begun: the engine can only go on with it, there is no later line.
  · rw [hreplies] at hsaid
    rcases hsaid with ⟨said, rest, hlatest, -, hone', hnew⟩ | ⟨hhead, -⟩
    · cases hlatest
      exact Or.inr ⟨hnew, hone'⟩
    · have hlater := (hhead _ rfl).2
      dsimp only at hlater
      omega

/-- **A call that waits reads the reply to its request**, and leaves the connection settled. -/
theorem Awaiting.answer {answer : Answer} {rest : Bytes} (h : Awaiting number request k d)
    (hanswer : k.answer? request = some (.ok answer, rest)) :
    (∃ line said, d.askers[line]? = some (number, request) ∧ (line, said) ∈ d.replies ∧
        (k.hungUp = true ∨ 0x0A ∈ said) ∧ request.answerOf? said = some answer) ∧
      Settled { k with unread := rest } d := by
  obtain ⟨before, older, haskers, hcovers, harrived, hreplies⟩ := h
  rcases hreplies with ⟨-, hunread⟩ | ⟨hreplies, hone⟩
  -- an answer is not read where nothing was said
  · have hgives := (k.answer?_eq_ok (by rw [hunread]; exact List.not_mem_nil) hanswer).1
    rw [hunread, request.answerOf?_nil] at hgives
    cases hgives
  · obtain ⟨hgives, rfl, hend⟩ := k.answer?_eq_ok hone hanswer
    refine ⟨⟨before.length, k.unread, ?_, ?_, hend, hgives⟩, ⟨?_, ?_⟩, harrived, rfl⟩
    · rw [haskers, List.getElem?_append_right (Nat.le_refl _), Nat.sub_self]
      rfl
    · rw [hreplies]
      exact List.mem_cons_self
    · rw [hreplies, haskers, List.map_cons, hcovers.lines, List.length_append,
        List.length_singleton, List.range_succ, List.reverse_append]
      rfl
    · rcases hend with hhung | hwhole
      · exact Or.inl hhung
      · refine hcovers.whole.imp_right fun hall r hr => ?_
        rw [hreplies] at hr
        rcases List.mem_cons.mp hr with rfl | hr
        · exact hwhole
        · exact hall r hr

/-! ### When the engine hangs up -/

theorem Settled.hangUp (h : Settled k d) : Settled { k with hungUp := true } d :=
  ⟨⟨h.covers.lines, Or.inl rfl⟩, Or.inl rfl, h.read⟩

theorem Awaiting.hangUp (h : Awaiting number request k d) :
    Awaiting number request { k with hungUp := true } d := by
  obtain ⟨before, older, haskers, hcovers, -, hreplies⟩ := h
  exact ⟨before, older, haskers, ⟨hcovers.lines, Or.inl rfl⟩, Or.inl rfl, hreplies⟩

/-! ### What is kept whatever happens -/

/-- What is added to a connection and its dialogue: requests and bytes at their ends, and replies
beside those that are final. -/
structure Grows (k : Connection) (d : Dialogue) (k' : Connection) (d' : Dialogue) : Prop where
  asked : d.askers <+: d'.askers
  final : ∀ r ∈ d.replies, (k.hungUp = true ∨ 0x0A ∈ r.2) →
    r ∈ d'.replies ∧ (k'.hungUp = true ∨ 0x0A ∈ r.2)

theorem Grows.refl (k : Connection) (d : Dialogue) : Grows k d k d :=
  ⟨List.prefix_rfl, fun _ hr hfinal => ⟨hr, hfinal⟩⟩

theorem grows_ask (k : Connection) (d : Dialogue) (bytes : Bytes) (number : Nat)
    (request : Request) : Grows k d (k.receive bytes) (d.ask number request) :=
  ⟨List.prefix_append _ _, fun _ hr hfinal => ⟨hr, (k.receive_cases bytes).1 ▸ hfinal⟩⟩

theorem grows_read (k : Connection) (d : Dialogue) (rest : Bytes) :
    Grows k d { k with unread := rest } d := ⟨List.prefix_rfl, fun _ hr hfinal => ⟨hr, hfinal⟩⟩

theorem grows_hangUp (k : Connection) (d : Dialogue) : Grows k d { k with hungUp := true } d :=
  ⟨List.prefix_rfl, fun _ hr _ => ⟨hr, Or.inl rfl⟩⟩

/-- Whatever the engine says, it leaves its complete replies as they are. -/
theorem grows_say {k' : Connection} (hopen : k.hungUp = false)
    (hsay : d.say? received line bytes = some d') : Grows k d k' d' := by
  obtain ⟨-, hsame, hsaid⟩ := say?_cases hsay
  refine ⟨⟨[], by rw [List.append_nil, hsame]⟩, fun r hr hfinal => ?_⟩
  have hwhole := hfinal.resolve_left (by rw [hopen]; exact Bool.false_ne_true)
  refine ⟨?_, Or.inr hwhole⟩
  rcases hsaid with ⟨said, older, hreplies, hpart, -, hnew⟩ | ⟨-, -, hnew⟩
  · rw [hreplies] at hr
    rw [hnew]
    rcases List.mem_cons.mp hr with rfl | hr
    · exact absurd hwhole hpart
    · exact List.mem_cons_of_mem _ hr
  · rw [hnew]
    exact List.mem_cons_of_mem _ hr

/-- A request is received whole or in part, behind all others. -/
theorem Heard.ask (h : Heard k d) (harrived : Arrived k d) (number : Nat)
    (hbytes : bytes <+: WireMessage.encode request) :
    Heard (k.receive bytes) (d.ask number request) := by
  obtain ⟨-, -, hreceived⟩ := k.receive_cases bytes
  have hmore : k.received <+: (k.receive bytes).received := by
    rcases hreceived with ⟨-, hsame⟩ | ⟨-, hmore⟩
    · exact ⟨[], by rw [List.append_nil, hsame]⟩
    · exact ⟨bytes, hmore.symm⟩
  refine ⟨?_, fun r hr => ?_, h.ordered⟩
  · rw [transcript_ask]
    rcases hreceived with ⟨-, hsame⟩ | ⟨hopen, hmore⟩
    · rw [hsame]
      exact h.received.trans (List.prefix_append _ _)
    · -- all the requests before have arrived, so this one comes right behind them
      have hall := harrived.resolve_left (by rw [hopen]; exact Bool.false_ne_true)
      rw [hmore, hall]
      exact (List.prefix_append_right_inj _).mpr hbytes
  · exact Nat.lt_of_lt_of_le (h.answered r hr) (hmore.sublist.count_le _)

/-- What the engine says answers a line that it has received, after all that it has answered. -/
theorem Heard.say (h : Heard k d) (hsay : d.say? k.received line bytes = some d') :
    Heard { k with unread := k.unread ++ bytes } d' := by
  obtain ⟨hline, hsame, hsaid⟩ := say?_cases hsay
  have hreceived : k.received <+: d'.transcript := by
    rw [transcript, hsame]
    exact h.received
  have hordered := h.ordered
  rcases hsaid with ⟨said, older, hreplies, -, -, hnew⟩ | ⟨hhead, -, hnew⟩
  · rw [hreplies, List.map_cons] at hordered
    refine ⟨hreceived, fun r hr => ?_, ?_⟩
    · rw [hnew] at hr
      rcases List.mem_cons.mp hr with rfl | hr
      · exact hline
      · exact h.answered r (by rw [hreplies]; exact List.mem_cons_of_mem _ hr)
    · rw [hnew, List.map_cons]
      exact hordered
  · refine ⟨hreceived, fun r hr => ?_, ?_⟩
    · rw [hnew] at hr
      rcases List.mem_cons.mp hr with rfl | hr
      · exact hline
      · exact h.answered r hr
    · rw [hnew, List.map_cons]
      refine List.pairwise_cons.mpr ⟨fun n hn => ?_, hordered⟩
      obtain ⟨r, hr, rfl⟩ := List.mem_map.mp hn
      cases hreplies : d.replies with
      | nil =>
          rw [hreplies] at hr
          cases hr
      | cons latest older =>
          have hlatest := (hhead latest (by rw [hreplies]; rfl)).2
          rw [hreplies] at hr hordered
          rcases List.mem_cons.mp hr with rfl | hr
          · exact hlatest
          · have hbefore := (List.pairwise_cons.mp hordered).1 r.1 (List.mem_map_of_mem hr)
            exact Nat.lt_trans hbefore hlatest

end Dialogue

end ShardKeeper
