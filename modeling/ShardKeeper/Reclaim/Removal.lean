import ShardKeeper.FileTree.Change
import ShardKeeper.Time

/-!
# Removals

## Main definitions

* `FileTree.reclaim` — removes a directory; one that is gone counts as removed
* `Removals` — removals that can be made to fail, and a record of those that were begun
-/

namespace ShardKeeper

/-- Removes a directory with everything in it, and returns an error text when that fails. A
directory that is not there needs no removal. -/
def FileTree.reclaim (tree : FileTree) (path : Path) : FileTree × Option String :=
  match tree.removeTree path with
  | (tree, .ok ()) | (tree, .error .notFound) => (tree, none)
  | (tree, .error fault) => (tree, some fault.message)

/-- A removal that was begun. -/
structure Removal where
  path : Path
  instant : Instant
  /-- How many keys were held at that instant. -/
  held : Nat
deriving DecidableEq

/-- The removals begun so far, and the ends of those to come. -/
structure Removals where
  begun : List Removal
  /-- The error texts of the next removals; nothing for one that succeeds. -/
  results : List (Option String)
  /-- Whether a removal that succeeds really removes something. -/
  areReal : Bool
deriving DecidableEq

namespace Removals

/-- Removals that are real and do not fail by design. -/
def real : Removals := ⟨[], [], true⟩

instance : Inhabited Removals := ⟨real⟩

/-- The removals with one more begun. -/
def begin (r : Removals) (removal : Removal) : Removals := { r with begun := r.begun ++ [removal] }

/-- The end of a removal of `path`. -/
def finish (r : Removals) (tree : FileTree) (path : Path) : Removals × FileTree × Option String :=
  let r' := { r with results := r.results.tail }
  match r.results.head?.join with
  | some error => (r', tree, some error)
  | none =>
    if r.areReal then
      let (tree, error) := tree.reclaim path
      (r', tree, error)
    else (r', tree, none)

end Removals

end ShardKeeper
