import ShardKeeper.Text.Decimal

/-!
# The routing hash space

Documents are routed by a hash id, and every shard of a table owns one slice of the hash space.

## Main definitions

* `HashSpace.size` — the number of hash ids
* `HashSlice` — an inclusive range of hash ids
* `HashSlice.ofShard?` — the slice of one shard of a table
* `ShardId` — one shard of one table

The space is cut into as many slices as there are shards, and the first slices are one id longer
when the cut does not come out even.
-/

namespace ShardKeeper

/-- The number of hash ids. -/
def HashSpace.size : Nat := 65536

/-- An inclusive range of hash ids. -/
structure HashSlice where
  lo : Nat
  hi : Nat
deriving DecidableEq, Inhabited

namespace HashSlice

/-- The slice of shard `index` in a table of `count` shards, or nothing when there is no such
shard. -/
def ofShard? (count index : Nat) : Option HashSlice :=
  if count = 0 || HashSpace.size < count || count ≤ index then none
  else
    let base := HashSpace.size / count
    let extra := HashSpace.size % count
    let lo := index * base + min index extra
    let length := base + if index < extra then 1 else 0
    some ⟨lo, lo + length - 1⟩

/-- The text of a slice between other names: its bounds with an underscore between them. -/
def boundsText (s : HashSlice) : List Char := Decimal.ofNat s.lo ++ '_' :: Decimal.ofNat s.hi

/-- The name of a slice in the engine's catalog. -/
def partitionId (s : HashSlice) : String := String.ofList s.boundsText

/-- The name of the directory that holds a slice. -/
def directoryName (s : HashSlice) : String := String.ofList ("partition_".toList ++ s.boundsText)

end HashSlice

/-- One shard of one table. -/
structure ShardId where
  table : String
  index : Nat
deriving DecidableEq, Inhabited

namespace ShardId

/-- The text of a shard: table and index, each in brackets. -/
def text (s : ShardId) : String := "[" ++ s.table ++ "][" ++ toString s.index ++ "]"

/-- The order of shards: by table, then by index. -/
def le (a b : ShardId) : Bool := a.table < b.table || (a.table == b.table && a.index ≤ b.index)

end ShardId

end ShardKeeper
