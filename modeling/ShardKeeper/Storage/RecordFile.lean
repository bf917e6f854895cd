import ShardKeeper.FileTree.Change
import ShardKeeper.Storage.Fault
import ShardKeeper.Durability.CommitPoint

/-!
# Commit record files

A commit record is replaced as a whole: the new record is written beside the old one and then moved
over it.

## Main definitions

* `RecordFile.load` — the stored commit point
* `RecordFile.Step`, `RecordFile.plan` — the single changes that storing consists of
* `RecordFile.store` — all of them, up to the first that fails

## Design notes

The plan is a list so that one can ask what is left when it stops after any of its steps. A write
comes in two steps, one that empties the file and one that fills it, and the filling may stop after
any number of bytes.
-/

namespace ShardKeeper.RecordFile

/-- The commit point stored at a path, `CommitPoint.unknown` when there is no file. -/
def load (tree : FileTree) (path : Path) : Except StorageFault CommitPoint :=
  match tree.read path with
  | .ok bytes =>
    match CommitPoint.ofBytes? bytes with
    | some point => .ok point
    | none => .error (.malformed path)
  | .error .notFound => .ok .unknown
  | .error _ => .error (.inaccessible path)

/-- A single change on the way to a stored record. -/
inductive Step where
  /-- The directories down to `directory` are created. -/
  | prepare (directory : Path)
  /-- The file is created, or emptied when it exists. -/
  | begin (file : Path)
  /-- The file, just emptied, gets its content. -/
  | fill (file : Path) (content : Bytes)
  /-- The file takes the place of another one. -/
  | replace (file target : Path)
deriving DecidableEq

/-- The path that is to blame when a step fails. -/
def Step.blame : Step → Path
  | .prepare directory => directory
  | .begin file => file
  | .fill file _ => file
  | .replace _ target => target

/-- The tree after a step. -/
def Step.perform (tree : FileTree) : Step → FileTree.Change
  | .prepare directory => tree.createDirectories directory
  | .begin file => tree.write file []
  | .fill file content => tree.write file content
  | .replace file target => tree.rename file target

/-- The file in which a new record is prepared. -/
def temporaryPath (path : Path) : Path := path.replaceExtension "json.tmp"

/-- The steps that store a commit point at a path. -/
def plan (path : Path) (point : CommitPoint) : List Step :=
  let temporary := temporaryPath path
  (match path.parent? with
    | some directory => [.prepare directory]
    | none => [])
  ++ [.begin temporary, .fill temporary point.render, .replace temporary path]

/-- The tree after the steps, or after those up to the first that fails, and the path to blame. -/
def performAll (tree : FileTree) : List Step → FileTree × Option Path
  | [] => (tree, none)
  | step :: rest =>
    match step.perform tree with
    | (tree, .ok ()) => performAll tree rest
    | (tree, .error _) => (tree, some step.blame)

/-- Stores a commit point at a path. -/
def store (tree : FileTree) (path : Path) (point : CommitPoint) :
    FileTree × Except StorageFault Unit :=
  match performAll tree (plan path point) with
  | (tree, none) => (tree, .ok ())
  | (tree, some blamed) => (tree, .error (.inaccessible blamed))

end ShardKeeper.RecordFile
