import ShardKeeper.FileTree
import ShardKeeper.Text.Blank
import ShardKeeper.Text.Decimal

/-!
# Local checkpoints

The document store keeps its durable local checkpoint in a file, as a decimal integer.

## Main definitions

* `LocalCheckpoint.ofBytes?` — the checkpoint that a file spells
* `LocalCheckpoint.read` — the checkpoint at a path, `-1` when it cannot be known
-/

namespace ShardKeeper.LocalCheckpoint

/-- A checkpoint that nobody knows, and that is never committed. -/
def unknown : Int := -1

/-- The integer of 64 bits that the bytes spell, blanks around it aside. -/
def ofBytes? (bytes : Bytes) : Option Int := do
  let n ← Decimal.int? (Text.trim (← Utf8.decode? bytes))
  if Decimal.fitsInt64 n then some n else none

/-- The checkpoint in a file. -/
def read (tree : FileTree) (path : Path) : Int :=
  match tree.read path with
  | .ok bytes => (ofBytes? bytes).getD unknown
  | .error _ => unknown

end ShardKeeper.LocalCheckpoint
