import ShardKeeper.FileTree

/-!
# Changes to file trees

## Main definitions

* `FileTree.Change` — a changed tree, and whether the change was completed
* `FileTree.createDirectories`, `FileTree.write`, `FileTree.rename`, `FileTree.removeTree` — the
  changes that the node makes
* `FileTree.put`, `FileTree.remove` — the changes that others make

## Design notes

A change that fails may have done a part of its work: directories that were created stay, and so
does what was removed.
-/

namespace ShardKeeper.FileTree

open ShardKeeper.Path (Place)

/-- The tree after a change, and why the change was not completed. -/
abbrev Change := FileTree × Except Fault Unit

/-- The tree with every missing directory on the way through the components created. -/
def createFrom (tree : FileTree) (start : Place) : List String → Change
  | [] => (tree, .ok ())
  | step :: rest =>
    if step = "." then createFrom tree start rest
    else if step = ".." then createFrom tree start.dropLast rest
    else if nameLimit < step.utf8ByteSize then (tree, .error .nameTooLong)
    else
      let next := start ++ [step]
      match tree.occupant? next with
      | some .directory => createFrom tree next rest
      | some (.file _) => (tree, .error (if rest.isEmpty then .alreadyExists else .notADirectory))
      | none => createFrom (tree.set next .directory) next rest

/-- A tree that is empty but for its home and the directories above it. -/
def settled (home : Place) : FileTree := (createFrom ⟨[], home⟩ [] home).1

/-- Creates a directory and all directories above it. A path that ends in `.` names no directory to
create: the one it leads to has to exist, and only those above it are created. -/
def createDirectories (tree : FileTree) (p : Path) : Change :=
  match tree.checkPath p with
  | .error fault => (tree, .error fault)
  | .ok () =>
    if p.steps.getLast? = some "." then
      let named := (p.steps.reverse.dropWhile (· = ".")).reverse
      match tree.createFrom [] (tree.startOf p ++ named.dropLast) with
      | (tree, .error fault) => (tree, .error fault)
      | (tree, .ok ()) => (tree, (tree.list p).map fun _ => ())
    else tree.createFrom [] (tree.startOf p ++ p.steps)

/-- Gives a file in an existing directory exactly the content `content`. -/
def write (tree : FileTree) (p : Path) (content : Bytes) : Change :=
  match tree.locate p with
  | .error fault => (tree, .error fault)
  | .ok place =>
    match tree.occupant? place with
    | some .directory => (tree, .error .isADirectory)
    | _ => (tree.set place (.file content), .ok ())

/-- Moves the file at `source` to `target`, over the file there if there is one. -/
def rename (tree : FileTree) (source target : Path) : Change :=
  match tree.read source, tree.locate source, tree.locate target with
  | .ok content, .ok old, .ok new =>
    match tree.occupant? new with
    | some .directory => (tree, .error .isADirectory)
    | _ => ((tree.erase old).set new (.file content), .ok ())
  | .error fault, _, _ | _, .error fault, _ | _, _, .error fault => (tree, .error fault)

/-- Removes an empty directory. The path has to name it by its last component. -/
def removeDirectory (tree : FileTree) (p : Path) : Change :=
  match tree.locate p with
  | .error fault => (tree, .error fault)
  | .ok place =>
    match p.steps.getLast? with
    | some "." => (tree, .error .invalidArgument)
    | some ".." => (tree, .error .notEmpty)
    | _ => if place.isEmpty then (tree, .error .busy) else (tree.erase place, .ok ())

/-- Removes everything in a directory and then the directory. When the way to it led through one of
the removed places, it is out of reach in the end and stays. -/
def removeTree (tree : FileTree) (p : Path) : Change :=
  match tree.locate p with
  | .error fault => (tree, .error fault)
  | .ok place =>
    match tree.occupant? place with
    | some .directory => (tree.clear place).removeDirectory p
    | some (.file _) => (tree, .error .notADirectory)
    | none => (tree, .error .notFound)

/-! ### Changes made by others -/

/-- The tree with a file, or with a directory when there is no content, at a path whose directories
are created as needed. -/
def put (tree : FileTree) (p : Path) (content : Option Bytes) : FileTree :=
  match content with
  | none => (tree.createDirectories p).1
  | some content =>
    let (tree, created) :=
      match p.parent? with
      | some parent => tree.createDirectories parent
      | none => (tree, .ok ())
    match created with
    | .ok () => (tree.write p content).1
    | .error _ => tree

/-- The tree without the file or directory at a path, if there is one. -/
def remove (tree : FileTree) (p : Path) : FileTree :=
  match tree.find p, tree.locate p with
  | .ok .directory, _ => (tree.removeTree p).1
  | .ok (.file _), .ok place => tree.erase place
  | _, _ => tree

end ShardKeeper.FileTree
