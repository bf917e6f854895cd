import ShardKeeper.Broadcast
import ShardKeeper.Process.Event
import ShardKeeper.Shard.Hosted

/-!
# The roster

The shards that the node has ever opened, and which of them it hosts.

## Main definitions

* `Roster` — all opened shards in order, and the numbers of those that are hosted
* `Roster.register?`, `Roster.remove`, `Roster.removeAll` — changes to the hosted ones
* `Roster.failAll` — a failure that befalls every hosted shard
* `Roster.hear` — what a health event means for the hosted shards

Each shard is hosted once at most. One that is removed is closed.
-/

namespace ShardKeeper

/-- The shards ever opened, and the numbers of the hosted ones. -/
structure Roster where
  shards : List HostedShard
  hosted : List (ShardId × Nat)
deriving DecidableEq

namespace Roster

/-- No shard was opened. -/
def empty : Roster := ⟨[], []⟩

instance : Inhabited Roster := ⟨empty⟩

/-- The roster with one more opened shard, not hosted yet, and its number. -/
def add (r : Roster) (s : HostedShard) : Roster × Nat :=
  ({ r with shards := r.shards ++ [s] }, r.shards.length)

/-- The roster with the shard of a number changed. -/
def modify (r : Roster) (number : Nat) (f : HostedShard → HostedShard) : Roster :=
  { r with shards := r.shards.modify number f }

/-- The number of a hosted shard. -/
def find? (r : Roster) (id : ShardId) : Option Nat := r.hosted.lookup id

/-- The roster with an opened shard hosted, unless the same shard is hosted already. -/
def register? (r : Roster) (number : Nat) : Option Roster :=
  match r.shards[number]? with
  | none => none
  | some s =>
    if (r.find? s.id).isSome then none
    else some { r with hosted := r.hosted ++ [(s.id, number)] }

/-- The roster without a shard, which is closed, and its number; nothing when it is not hosted. -/
def remove (r : Roster) (id : ShardId) : Option (Roster × Nat) :=
  (r.find? id).map fun number =>
    ({ r with hosted := r.hosted.filter fun h => h.1 != id }.modify number HostedShard.close,
      number)

/-- The roster without any hosted shard; all that were are closed. -/
def removeAll (r : Roster) : Roster :=
  r.hosted.foldl (fun r h => r.modify h.2 HostedShard.close) { r with hosted := [] }

/-- The roster after a failure of every hosted shard. -/
def failAll (r : Roster) (reason : String) : Roster :=
  r.hosted.foldl (fun r h => r.modify h.2 fun s => s.fail reason) r

/-- The hosted shards in order. -/
def ids (r : Roster) : List ShardId := (r.hosted.map (·.1)).mergeSort ShardId.le

/-- What befalls the hosted shards when the engine could not be restarted. -/
def lossText (role error : String) : String :=
  "searcher role " ++ role ++ " could not be restarted: " ++ error

/-- The roster after something came over the channel of health events. Only a failed restart
matters. -/
def hear (r : Roster) : Broadcast.Receipt HealthEvent → Roster
  | .item (.restartFailed role error) => r.failAll (lossText role error)
  | _ => r

end Roster

end ShardKeeper
