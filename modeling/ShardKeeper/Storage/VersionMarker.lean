import ShardKeeper.FileTree
import ShardKeeper.Json.Reader
import ShardKeeper.Json.Record
import ShardKeeper.Storage.Fault
import ShardKeeper.Storage.Layout

/-!
# Version markers

After each persist the search engine leaves a file `version.<N>` in the directory of the partition.

## Main definitions

* `VersionMarker` — a version on disk and the time it was persisted
* `numberAfter?` — the number in a name such as `version.7`
* `VersionMarker.ofMicros` — a persist time in microseconds, as a marker file has it
* `VersionMarker.newest` — the marker with the largest number in a directory
-/

namespace ShardKeeper

/-- A version on the engine's disk. The time is in milliseconds and may be missing. -/
structure VersionMarker where
  version : Int
  timestamp : Option Int
deriving DecidableEq

/-- The number after `lead` in `name`: decimal digits and nothing else, of at most 64 bits with a
sign. -/
def numberAfter? (lead name : String) : Option Int :=
  let lead := lead.toList
  let name := name.toList
  if lead.isPrefixOf name then
    match Decimal.nat? (name.drop lead.length) with
    | some n => if Decimal.fitsInt64 n then some n else none
    | none => none
  else none

/-- The greatest of the numbers that follow `lead` in some of the names. -/
def greatestNumber? (lead : String) (names : List String) : Option Int :=
  (names.filterMap (numberAfter? lead)).max?

/-- The greatest number that follows `lead` in the name of an entry of a directory. A missing
directory has no entries. -/
def greatestEntry (tree : FileTree) (directory : Path) (lead : String) :
    Except StorageFault (Option Int) :=
  match tree.list directory with
  | .ok names => .ok (greatestNumber? lead names)
  | .error .notFound => .ok none
  | .error _ => .error (.inaccessible directory)

namespace VersionMarker

/-- What the name of a marker file begins with. -/
def lead : String := "version."

/-- The persist time in a marker file, in microseconds. -/
def timestampOfBytes? (bytes : Bytes) : Option (Option Int) := do
  match ← (← Json.ofBytes? bytes).fields? ["timestamp"] with
  | [timestamp] => timestamp.orElse none (Json.nullable? Json.int64?)
  | _ => none

/-- The marker of a version that was persisted at a time in microseconds. The time is cut to whole
milliseconds, toward zero. -/
def ofMicros (version : Int) (micros : Option Int) : VersionMarker :=
  ⟨version, micros.map (Int.tdiv · 1000)⟩

/-- The path of a marker file. -/
def path (directory : Path) (version : Int) : Path := directory.join (lead ++ toString version)

/-- The marker with the largest number in a directory, if there is one. -/
def newest (tree : FileTree) (directory : Path) : Except StorageFault (Option VersionMarker) := do
  match ← greatestEntry tree directory lead with
  | none => return none
  | some version =>
    let file := path directory version
    match tree.read file with
    | .error _ => throw (.inaccessible file)
    | .ok bytes =>
      match timestampOfBytes? bytes with
      | none => throw (.malformed file)
      | some timestamp => return some (ofMicros version timestamp)

/-- The newest marker of one partition of a table. -/
def ofPartition (tree : FileTree) (layout : Layout) (table : String) (slice : HashSlice) :
    Except StorageFault (Option VersionMarker) :=
  newest tree (layout.partitionDirectory table slice)

end VersionMarker

end ShardKeeper
