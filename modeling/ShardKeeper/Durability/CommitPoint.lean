import ShardKeeper.Json.Record
import ShardKeeper.Json.Reader
import ShardKeeper.Json.Printer

/-!
# Commit points

The last point of durability on which the document store and the search engine agree.

## Main definitions

* `CommitPoint` — a persist time, an on-disk version and the local checkpoint durable by then
* `CommitPoint.render`, `CommitPoint.ofBytes?` — the record of a commit point in a file
-/

namespace ShardKeeper

/-- The engine had persisted `version` at `timestamp` (in milliseconds), and every local operation
up to `checkpoint` was durable by then. A negative timestamp or checkpoint is an unknown one. -/
structure CommitPoint where
  timestamp : Int
  version : Int
  checkpoint : Int
deriving DecidableEq

namespace CommitPoint

/-- The commit point of a shard that has never committed. -/
def unknown : CommitPoint := ⟨-1, 0, -1⟩

instance : Inhabited CommitPoint := ⟨unknown⟩

/-- The names under which a record keeps the parts of a commit point. -/
def fieldNames : List String := ["commit_timestamp", "commit_version", "local_checkpoint"]

/-- The record of a commit point. -/
def toJson (p : CommitPoint) : Json :=
  .record [("commit_timestamp", .integer p.timestamp), ("commit_version", .integer p.version),
    ("local_checkpoint", .integer p.checkpoint)]

/-- The commit point in a record; what is missing is as in `unknown`. -/
def ofJson? (v : Json) : Option CommitPoint := do
  match ← v.fields? fieldNames with
  | [timestamp, version, checkpoint] =>
    return ⟨← timestamp.orElse (-1) Json.int64?, ← version.orElse 0 Json.int64?,
      ← checkpoint.orElse (-1) Json.int64?⟩
  | _ => none

/-- The bytes of a record file. -/
def render (p : CommitPoint) : Bytes := Json.renderIndented p.toJson

/-- The commit point in a record file. -/
def ofBytes? (bytes : Bytes) : Option CommitPoint := (Json.ofBytes? bytes).bind ofJson?

end CommitPoint

end ShardKeeper
