import ShardKeeper.Durability.CommitPoint

/-!
# A commit store in memory

## Main definitions

* `MemoryStore` — one commit point, the number of times it was replaced, and failures to come
* `MemoryStore.load`, `MemoryStore.store`
-/

namespace ShardKeeper

/-- A store that holds one commit point, and that can be made to fail. -/
structure MemoryStore where
  point : CommitPoint
  writes : Nat
  /-- How many of the next attempts to store fail. -/
  failingStores : Nat
  /-- Whether attempts to load fail. -/
  failingLoads : Bool
deriving DecidableEq

namespace MemoryStore

/-- A store holding a commit point. -/
def holding (point : CommitPoint) : MemoryStore := ⟨point, 0, 0, false⟩

/-- The stored commit point, or nothing when loading fails. -/
def load (s : MemoryStore) : Except Unit CommitPoint :=
  if s.failingLoads then .error () else .ok s.point

/-- Replaces the commit point, unless storing fails. -/
def store (s : MemoryStore) (point : CommitPoint) : MemoryStore × Except Unit Unit :=
  match s.failingStores with
  | 0 => ({ s with point, writes := s.writes + 1 }, .ok ())
  | n + 1 => ({ s with failingStores := n }, .error ())

end MemoryStore

end ShardKeeper
