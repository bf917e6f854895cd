import ShardKeeper.Searcher.Stream

/-!
# The channel to the search engine

All calls of a node share one connection, which is made when it is needed and kept between calls.

## Main definitions

* `Connection` — one connection, as far as both ends have got
* `Exchange`, `ExchangePhase` — one call on its way through the channel
* `Channel`, `Channel.Event` — all calls and connections, and what can happen to them
* `Channel.step?` — what comes of an event, if it can happen

## Design notes

A call holds the channel from the moment it has its turn to its end, and takes the kept connection
with it. It gives the connection back only after it has read its answer; in every other case the
connection is dropped, with whatever is still on its way over it. So an answer that comes late meets
nobody who could take it for his own.
-/

namespace ShardKeeper

/-- A connection as far as both ends have got. -/
structure Connection where
  /-- What the engine has received. -/
  received : Bytes
  /-- What the engine has sent and the node has not read. -/
  unread : Bytes
  /-- Whether the engine has hung up. -/
  hungUp : Bool
deriving DecidableEq

/-- The answer to a request of either kind. -/
inductive Answer where
  | write (response : WriteResponse)
  | query (response : QueryResponse)
deriving DecidableEq

/-- Why there is no answer. -/
inductive ChannelFault where
  /-- The engine could not be reached, or the connection broke. -/
  | broken
  /-- The engine's line was no answer. -/
  | malformed
  /-- The engine hung up. -/
  | closed
  /-- The answer did not come in time. -/
  | late
deriving DecidableEq

/-- The text of a missing answer. -/
def ChannelFault.text : ChannelFault → String
  | .broken => "I/O error"
  | .malformed => "codec error"
  | .closed => "connection closed"
  | .late => "timed out"

/-- The fault that a fault of the stream amounts to. -/
def ChannelFault.ofStream : Stream.Fault → ChannelFault
  | .closed => .closed
  | .malformed => .malformed
  | .notText => .broken

/-- The answer that stands for a missing one. -/
def Request.nullAnswer (request : Request) (fault : ChannelFault) : Answer :=
  match request with
  | .write _ => .write (Response.null fault.text)
  | .query _ => .query (Response.null fault.text)

namespace Connection

/-- A connection just made. -/
def fresh : Connection := ⟨[], [], false⟩

/-- What is unread, up to the last line feed and after it. -/
def splitUnread (c : Connection) : Bytes × Bytes :=
  ((c.unread.reverse.dropWhile (· ≠ 0x0A)).reverse,
    (c.unread.reverse.takeWhile (· ≠ 0x0A)).reverse)

/-- The next message, and what is unread after it; nothing while it has not arrived. The last line
needs no line feed when the engine has hung up. -/
def read? {α : Type} [WireMessage α] (c : Connection) : Option (Except Stream.Fault α × Bytes) :=
  if c.hungUp then some (Stream.read c.unread)
  else
    match Stream.read c.splitUnread.1 with
    | (.error .closed, _) => none
    | (result, rest) => some (result, rest ++ c.splitUnread.2)

/-- The answer to a request, and what is unread after it; nothing while it has not arrived. -/
def answer? (c : Connection) (request : Request) : Option (Except Stream.Fault Answer × Bytes) :=
  match request with
  | .write _ => (c.read? (α := WriteResponse)).map fun (r, rest) => (r.map Answer.write, rest)
  | .query _ => (c.read? (α := QueryResponse)).map fun (r, rest) => (r.map Answer.query, rest)

end Connection

/-- Where a call stands. A number names a connection. -/
inductive ExchangePhase where
  /-- It waits for its turn. -/
  | waiting
  /-- It has its turn, but no connection. -/
  | connecting
  /-- It is about to write its request. -/
  | writing (connection : Nat)
  /-- It waits for its answer. -/
  | reading (connection : Nat)
  | done (answer : Answer)
deriving DecidableEq

/-- Whether a call has its turn. -/
def ExchangePhase.hasTurn : ExchangePhase → Bool
  | .connecting | .writing _ | .reading _ => true
  | .waiting | .done _ => false

/-- One call on its way through the channel. -/
structure Exchange where
  request : Request
  phase : ExchangePhase
deriving DecidableEq

/-- All calls and all connections ever made, and the connection that is kept for the next call. -/
structure Channel where
  connections : List Connection
  kept : Option Nat
  exchanges : List Exchange
deriving DecidableEq

namespace Channel

/-- A channel that was not used yet. -/
def unused : Channel := ⟨[], none, []⟩

/-- What can happen to a channel. Numbers name calls and connections in the order in which they came
up. -/
inductive Event where
  /-- A new call begins to wait. -/
  | call (request : Request)
  /-- A call has its turn. -/
  | take (exchange : Nat)
  /-- The engine accepts a connection or refuses it. -/
  | connect (exchange : Nat) (accepted : Bool)
  /-- A request is written, or the connection breaks after some of its bytes. -/
  | write (exchange : Nat) (brokenAfter : Option Nat)
  /-- Bytes arrive from the engine. -/
  | deliver (connection : Nat) (bytes : Bytes)
  /-- The engine hangs up. -/
  | hangUp (connection : Nat)
  /-- A call reads its answer. -/
  | read (exchange : Nat)
  /-- The connection breaks while a call waits for its answer. -/
  | lose (exchange : Nat)
  /-- The time of a call is up. If it was about to write its request, some of its bytes are
  written. -/
  | expire (exchange : Nat) (written : Nat)

/-- Whether no call has its turn. -/
def isFree (c : Channel) : Bool := c.exchanges.all fun e => !e.phase.hasTurn

/-- The channel with a call in another phase. -/
def setPhase (c : Channel) (number : Nat) (e : Exchange) (phase : ExchangePhase) : Channel :=
  { c with exchanges := c.exchanges.set number { e with phase } }

/-- The channel after a call has ended without an answer. Its connection, if it had one, is
dropped. -/
def fail (c : Channel) (number : Nat) (e : Exchange) (fault : ChannelFault) : Channel :=
  c.setPhase number e (.done (e.request.nullAnswer fault))

/-- The channel after bytes were written to a connection. Nobody receives them when the engine has
hung up. -/
def transmit (c : Channel) (connection : Nat) (bytes : Bytes) : Channel :=
  { c with connections := c.connections.modify connection fun k =>
      if k.hungUp then k else { k with received := k.received ++ bytes } }

/-- The channel after a call has read its answer, and kept its connection, or was disappointed; as
it was when there is nothing to read yet. -/
def afterRead (c : Channel) (number : Nat) (e : Exchange) (connection : Nat) : Option Channel := do
  let k ← c.connections[connection]?
  let (result, rest) ← k.answer? e.request
  let c := { c with connections := c.connections.set connection { k with unread := rest } }
  match result with
  | .ok answer => return { c.setPhase number e (.done answer) with kept := some connection }
  | .error fault => return c.fail number e (.ofStream fault)

/-- The channel after an event, if that can happen. -/
def step? (c : Channel) : Event → Option Channel
  | .call request => some { c with exchanges := c.exchanges ++ [⟨request, .waiting⟩] }
  | .take number => do
    let e ← c.exchanges[number]?
    if e.phase = .waiting ∧ c.isFree then
      match c.kept with
      | some connection => return { c.setPhase number e (.writing connection) with kept := none }
      | none => return c.setPhase number e .connecting
    else none
  | .connect number accepted => do
    let e ← c.exchanges[number]?
    if e.phase = .connecting then
      if accepted then
        return { c.setPhase number e (.writing c.connections.length) with
          connections := c.connections ++ [.fresh] }
      else return c.fail number e .broken
    else none
  | .write number brokenAfter => do
    let e ← c.exchanges[number]?
    match e.phase with
    | .writing connection =>
      let line := WireMessage.encode e.request
      match brokenAfter with
      | none => return (c.transmit connection line).setPhase number e (.reading connection)
      | some count => return (c.transmit connection (line.take count)).fail number e .broken
    | _ => none
  | .deliver connection bytes => do
    let k ← c.connections[connection]?
    if k.hungUp then none
    else
      return { c with connections :=
        c.connections.set connection { k with unread := k.unread ++ bytes } }
  | .hangUp connection => do
    let k ← c.connections[connection]?
    return { c with connections := c.connections.set connection { k with hungUp := true } }
  | .read number => do
    let e ← c.exchanges[number]?
    match e.phase with
    | .reading connection => c.afterRead number e connection
    | _ => none
  | .lose number => do
    let e ← c.exchanges[number]?
    match e.phase with
    | .reading _ => return c.fail number e .broken
    | _ => none
  | .expire number written => do
    let e ← c.exchanges[number]?
    match e.phase with
    | .done _ => none
    | .writing connection =>
      let line := WireMessage.encode e.request
      return (c.transmit connection (line.take written)).fail number e .late
    | _ => return c.fail number e .late

end Channel

end ShardKeeper
