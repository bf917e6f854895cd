import ShardKeeper.Searcher.Channel

/-!
# Conversations with a scripted engine

Calls that follow one another, with an engine whose reactions are laid down in advance.

## Main definitions

* `Reaction` — what the engine does when it has received a line
* `Conversation` — the channel, and the reactions to come on each connection
* `Conversation.call`, `Conversation.converse` — one call, and several in turn
-/

namespace ShardKeeper

/-- What the engine does when it has received a line: it sends something, and may then hang up. -/
structure Reaction where
  send : Bytes
  hangUp : Bool
deriving DecidableEq

/-- A channel, and the reactions to come on each connection that the engine accepts. -/
structure Conversation where
  channel : Channel
  reactions : List (List Reaction)

namespace Conversation

/-- A conversation in which nothing was said. -/
def opening (reactions : List (List Reaction)) : Conversation := ⟨.unused, reactions⟩

/-- The conversation after an event, if that can happen. -/
def perform (s : Conversation) (e : Channel.Event) : Conversation :=
  { s with channel := (s.channel.step? e).getD s.channel }

/-- The conversation after the engine has reacted to a line on a connection. An engine that has no
reaction left stays silent. -/
def react (s : Conversation) (connection : Nat) : Conversation :=
  match s.reactions[connection]? with
  | some (r :: rest) =>
    let s := { s with reactions := s.reactions.set connection rest }.perform
      (.deliver connection r.send)
    if r.hangUp then s.perform (.hangUp connection) else s
  | _ => s

/-- The phase of a call. -/
def phase? (s : Conversation) (number : Nat) : Option ExchangePhase :=
  s.channel.exchanges[number]?.map Exchange.phase

/-- One call from its beginning to its end. -/
def call (s : Conversation) (request : Request) : Conversation :=
  let number := s.channel.exchanges.length
  let accepted := s.channel.connections.length < s.reactions.length
  let s := ((s.perform (.call request)).perform (.take number)).perform (.connect number accepted)
  let s := s.perform (.write number none)
  let s :=
    match s.phase? number with
    | some (.reading connection) => s.react connection
    | _ => s
  (s.perform (.read number)).perform (.expire number 0)

/-- Several calls in turn. -/
def converse (s : Conversation) (requests : List Request) : Conversation := requests.foldl call s

/-- The answers so far. -/
def answers (s : Conversation) : List Answer :=
  s.channel.exchanges.filterMap fun e =>
    match e.phase with
    | .done answer => some answer
    | _ => none

/-- The lines that the engine has received on each connection. -/
def heard (s : Conversation) : List (List Bytes) :=
  s.channel.connections.map fun c => Stream.lines c.received

end Conversation

end ShardKeeper
