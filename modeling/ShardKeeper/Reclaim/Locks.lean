import ShardKeeper.Reclaim.Key

/-!
# Reclaim locks

## Main definitions

* `ReclaimLocks` — the keys that somebody holds
* `ReclaimLocks.take?`, `ReclaimLocks.giveBack` — one holder at a time
-/

namespace ShardKeeper

/-- The keys that somebody holds, and how often any was taken and given back. -/
structure ReclaimLocks where
  held : List ReclaimKey
  taken : Nat
  returned : Nat
deriving DecidableEq

namespace ReclaimLocks

/-- No key is held. -/
def empty : ReclaimLocks := ⟨[], 0, 0⟩

instance : Inhabited ReclaimLocks := ⟨empty⟩

/-- Whether somebody holds a key. -/
def isHeld (l : ReclaimLocks) (key : ReclaimKey) : Bool := l.held.contains key

/-- Takes a key, unless somebody holds it. -/
def take? (l : ReclaimLocks) (key : ReclaimKey) : Option ReclaimLocks :=
  if l.isHeld key then none else some { l with held := key :: l.held, taken := l.taken + 1 }

theorem isHeld_of_take? {l m : ReclaimLocks} {key other : ReclaimKey}
    (h : l.take? key = some m) : m.isHeld other = (other == key || l.isHeld other) := by
  unfold take? at h
  split at h
  · simp at h
  · simp only [Option.some.injEq] at h
    subst h
    exact List.contains_cons

theorem take?_eq_none_iff (l : ReclaimLocks) (key : ReclaimKey) :
    l.take? key = none ↔ l.isHeld key = true := by
  unfold take?
  split <;> simp [*]

/-- Gives a key back. -/
def giveBack (l : ReclaimLocks) (key : ReclaimKey) : ReclaimLocks :=
  if l.isHeld key then { l with held := l.held.erase key, returned := l.returned + 1 } else l

end ReclaimLocks

end ShardKeeper
