import ShardKeeper.Catalog.Feed
import ShardKeeper.Time

/-!
# Following a catalog file

A background activity reads the catalog from a file again and again: after a fixed pause, and at
once when a newer catalog is asked for.

## Main definitions

* `FileSync` — where the activity stands
* `FileSync.receive` — what a read of the file does to the feed
* `FileSync.next?` — its next step, unless it waits or has ended

A file that cannot be read, or describes no catalog, leaves the feed as it is.
-/

namespace ShardKeeper

/-- Where the activity stands. -/
inductive FileSync where
  /-- It is about to read the file. -/
  | reading
  /-- It has read the file, if it could, and is about to pass the catalog on and to pause. -/
  | taking (content : Option Bytes)
  /-- It pauses until an instant, or until a newer catalog is asked for. -/
  | parked (next : Instant)
  | ended
deriving DecidableEq

namespace FileSync

/-- The feed after a read of the file that returned `content`, if it could be read. -/
def receive (feed : CatalogFeed) (content : Option Bytes) : CatalogFeed :=
  match content with
  | none => feed
  | some bytes =>
    if (Utf8.decode? bytes).isSome then
      match Catalog.ofBytes bytes with
      | .ok c => feed.publish c
      | .error _ => feed
    else feed

/-- The end of the pause, if it has come. -/
def wake? (feed : CatalogFeed) (next now : Instant) (cancelled : Bool) :
    Option (CatalogFeed × FileSync) :=
  if cancelled then some (feed.stopListening, .ended)
  else if feed.listener = .woken then some (feed.hear, .reading)
  else if next ≤ now then some (feed.stopListening, .reading)
  else none

/-- The next step at the instant `now`, when the file holds `file`; nothing when the activity waits
or has ended. -/
def next? (s : FileSync) (feed : CatalogFeed) (interval : Duration) (now : Instant)
    (cancelled : Bool) (file : Option Bytes) : Option (CatalogFeed × FileSync) :=
  match s with
  | .reading => some (feed, .taking file)
  | .taking content => some ((receive feed content).listen, .parked (now + interval.pauseNanos))
  | .parked next => wake? feed next now cancelled
  | .ended => none

/-- The instant the activity waits for. -/
def due? : FileSync → Option Instant
  | .parked next => some next
  | _ => none

end FileSync

end ShardKeeper
