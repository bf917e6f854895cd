/-!
# Broadcast channels

A channel that keeps a bounded number of unread items for one receiver and drops the oldest when it
has to.

## Main definitions

* `Broadcast` — the unread items, and how many were dropped since the last look
* `Broadcast.send`, `Broadcast.hangUp` — what the sender does
* `Broadcast.receive` — what the receiver gets
-/

namespace ShardKeeper

/-- A channel as its receiver sees it. -/
structure Broadcast (α : Type) where
  capacity : Nat
  /-- What was sent and neither received nor dropped, the oldest first. -/
  unread : List α
  /-- How many items were dropped since the receiver last looked. -/
  missed : Nat
  /-- Whether more may be sent. -/
  isOpen : Bool
deriving DecidableEq

namespace Broadcast

variable {α : Type}

/-- A channel that keeps at least `wanted` items: as many as the next power of two. -/
def withRoomFor (wanted : Nat) : Broadcast α := ⟨wanted.nextPowerOfTwo, [], 0, true⟩

/-- The channel after an item was sent. -/
def send (c : Broadcast α) (item : α) : Broadcast α :=
  if !c.isOpen then c
  else
    let unread := c.unread ++ [item]
    let excess := unread.length - c.capacity
    { c with unread := unread.drop excess, missed := c.missed + excess }

/-- A channel never keeps more than it has room for. -/
theorem unread_length_le (c : Broadcast α) (item : α)
    (h : c.unread.length ≤ c.capacity) : (c.send item).unread.length ≤ c.capacity := by
  unfold send
  split
  · exact h
  · simp only [List.length_drop, List.length_append]
    omega

/-- The channel after several items were sent. -/
def sendAll (c : Broadcast α) (items : List α) : Broadcast α := items.foldl send c

/-- The channel after its sender has gone. -/
def hangUp (c : Broadcast α) : Broadcast α := { c with isOpen := false }

/-- What the receiver gets from a look at the channel. -/
inductive Receipt (α : Type) where
  | item (a : α)
  /-- So many items were dropped. -/
  | missed (count : Nat)
  /-- There is nothing, and there never will be. -/
  | closed
deriving DecidableEq

/-- What the receiver gets, and the channel after that; nothing when it has to wait. -/
def receive (c : Broadcast α) : Option (Receipt α × Broadcast α) :=
  if 0 < c.missed then some (.missed c.missed, { c with missed := 0 })
  else
    match c.unread with
    | a :: rest => some (.item a, { c with unread := rest })
    | [] => if c.isOpen then none else some (.closed, c)

/-- Everything that the receiver gets before it has to wait, and the channel after that. -/
def drain (c : Broadcast α) : List (Receipt α) × Broadcast α :=
  ((if 0 < c.missed then [.missed c.missed] else []) ++ c.unread.map .item,
    { c with unread := [], missed := 0 })

end Broadcast

end ShardKeeper
