import ShardKeeper.Path
import ShardKeeper.Text.Utf8

/-!
# File trees

The files and directories that the node shares with the document store and the search engine.

## Main definitions

* `FileTree` — every place that is occupied, and by what
* `FileTree.Fault` — why an access fails
* `FileTree.locate` — the place that a path leads to
* `FileTree.read`, `FileTree.list` — what a file holds and what a directory lists

The main statements are `occupant?_set` and `occupant?_erase`: what a change does to every place.

## Design notes

A path is looked up component by component, and each of them starts from a directory. So does the
nothing behind a separator at the end: a path that ends in one leads to a directory or fails.

A changed place keeps its rank among the others, so the order of entries carries no meaning.
-/

namespace ShardKeeper

open ShardKeeper.Path (Place)

/-- What occupies a place. -/
inductive FileTree.Entry where
  | directory
  | file (content : Bytes)
deriving DecidableEq

/-- The occupied places of a file system below its root, which is a directory. -/
structure FileTree where
  entries : List (Place × FileTree.Entry)
  /-- The directory that relative paths start from. -/
  home : Place

namespace FileTree

/-- Why an access fails. -/
inductive Fault where
  | notFound
  | notADirectory
  | isADirectory
  | alreadyExists
  | notEmpty
  | busy
  /-- The last component of the path does not name an entry. -/
  | invalidArgument
  | nameTooLong
  /-- The path has a NUL character, which ends a path for the file system. -/
  | unexpectedNul
deriving DecidableEq

/-- The text of a failed access. -/
def Fault.message : Fault → String
  | .notFound => "No such file or directory (os error 2)"
  | .busy => "Device or resource busy (os error 16)"
  | .alreadyExists => "File exists (os error 17)"
  | .notADirectory => "Not a directory (os error 20)"
  | .isADirectory => "Is a directory (os error 21)"
  | .invalidArgument => "Invalid argument (os error 22)"
  | .nameTooLong => "File name too long (os error 36)"
  | .notEmpty => "Directory not empty (os error 39)"
  | .unexpectedNul => "file name contained an unexpected NUL byte"

/-- A tree without any entry. -/
def empty : FileTree := ⟨[], []⟩

instance : Inhabited FileTree := ⟨empty⟩

/-- What occupies a place. -/
def occupant? (tree : FileTree) (place : Place) : Option Entry :=
  if place.isEmpty then some .directory else tree.entries.lookup place

/-- The tree with `place` occupied by `entry`. -/
def set (tree : FileTree) (place : Place) (entry : Entry) : FileTree :=
  { tree with
    entries :=
      if (tree.entries.lookup place).isSome then
        tree.entries.map fun e => if e.1 == place then (place, entry) else e
      else tree.entries ++ [(place, entry)] }

/-- The tree without the places in or below `place`. -/
def erase (tree : FileTree) (place : Place) : FileTree :=
  { tree with entries := tree.entries.filter fun e => !e.1.within place }

/-- The tree without the places below `place`. -/
def clear (tree : FileTree) (place : Place) : FileTree :=
  { tree with entries := tree.entries.filter fun e => !e.1.within place || e.1 == place }

theorem lookup_map_update (entries : List (Place × Entry)) (place other : Place) (entry : Entry) :
    (entries.map fun e => if e.1 == place then (place, entry) else e).lookup other
      = if other = place then (entries.lookup place).map fun _ => entry
        else entries.lookup other := by
  induction entries with
  | nil => simp
  | cons e rest ih =>
    obtain ⟨p, x⟩ := e
    rw [List.map_cons]
    by_cases hp : p = place
    · subst hp
      by_cases ho : other = p
      · subst ho
        simp
      · have : (other == p) = false := beq_false_of_ne ho
        simp only [BEq.rfl, if_true, List.lookup_cons, this, ih, ho, if_false]
    · have hp' : (p == place) = false := beq_false_of_ne hp
      have hp'' : (place == p) = false := beq_false_of_ne (Ne.symm hp)
      simp only [hp', Bool.false_eq_true, if_false, List.lookup_cons, ih]
      by_cases ho : other = p
      · subst ho
        simp [hp]
      · have ho' : (other == p) = false := beq_false_of_ne ho
        simp only [ho', hp'']

/-- A changed place is occupied by what was put there, and no other place is concerned. -/
theorem occupant?_set {tree : FileTree} {place other : Place} {entry : Entry} (h : place ≠ []) :
    (tree.set place entry).occupant? other
      = if other = place then some entry else tree.occupant? other := by
  unfold occupant? set
  by_cases ho : other = []
  · subst ho
    simp [Ne.symm h]
  · have ho' : other.isEmpty = false := by simpa using ho
    simp only [ho', Bool.false_eq_true, if_false]
    split
    · rename_i hs
      simp only [lookup_map_update]
      split
      · obtain ⟨e, he⟩ := Option.isSome_iff_exists.1 hs
        simp [he]
      · rfl
    · rename_i hs
      have hs' : tree.entries.lookup place = none := Option.not_isSome_iff_eq_none.1 hs
      simp only [List.lookup_append, List.lookup_cons, List.lookup_nil]
      by_cases hp : other = place
      · subst hp
        simp [hs']
      · simp [beq_false_of_ne hp, hp]

/-- Erasing a place empties it and everything below it, and nothing else. -/
theorem occupant?_erase {tree : FileTree} {place other : Place} (h : other ≠ []) :
    (tree.erase place).occupant? other
      = if other.within place then none else tree.occupant? other := by
  have h' : other.isEmpty = false := by simpa using h
  unfold occupant? erase
  simp only [h', Bool.false_eq_true, if_false]
  induction tree.entries with
  | nil => simp
  | cons e rest ih =>
    obtain ⟨p, x⟩ := e
    rw [List.filter_cons]
    by_cases ho : other = p
    · subst ho
      cases hw : Place.within other place
      · simp
      · simp only [hw, if_true] at ih
        simp [ih]
    · have ho' : (other == p) = false := beq_false_of_ne ho
      simp only [List.lookup_cons, ho']
      split
      · simp only [List.lookup_cons, ho', ih]
      · exact ih

/-! ### Looking paths up -/

/-- The greatest number of bytes in a name. -/
def nameLimit : Nat := 255

/-- The greatest number of bytes in a path. -/
def pathLimit : Nat := 4095

/-- The place that a path is looked up from. -/
def startOf (tree : FileTree) (p : Path) : Place := if p.isAbsolute then [] else tree.home

/-- The number of bytes in a path from the root. -/
def width (tree : FileTree) (p : Path) : Nat :=
  (if p.isAbsolute then 0 else tree.home.width + 1) + p.text.utf8ByteSize

/-- Whether a path can be handed to the file system at all. -/
def checkPath (tree : FileTree) (p : Path) : Except Fault Unit :=
  if p.text.toList.contains '\x00' then .error .unexpectedNul
  else if pathLimit < tree.width p then .error .nameTooLong
  else .ok ()

/-- The place that components lead to from the place `start`, whether it is occupied or not. -/
def locateFrom (tree : FileTree) (start : Place) : List String → Except Fault Place
  | [] => .ok start
  | step :: rest =>
    match tree.occupant? start with
    | none => .error .notFound
    | some (.file _) => .error .notADirectory
    | some .directory =>
      if step = "." then locateFrom tree start rest
      else if step = ".." then locateFrom tree start.dropLast rest
      else if nameLimit < step.utf8ByteSize then .error .nameTooLong
      else locateFrom tree (start ++ [step]) rest

/-- The place that a path leads to. A separator at its end asks for a directory, just as `.`
does. -/
def locate (tree : FileTree) (p : Path) : Except Fault Place := do
  tree.checkPath p
  tree.locateFrom (tree.startOf p) (p.steps ++ if p.isOpen then ["."] else [])

/-- What a path leads to. -/
def find (tree : FileTree) (p : Path) : Except Fault Entry := do
  match tree.occupant? (← tree.locate p) with
  | some entry => return entry
  | none => throw .notFound

/-- Whether a path leads to anything. -/
def has (tree : FileTree) (p : Path) : Bool := (tree.find p).isOk

/-- The bytes of a file. -/
def read (tree : FileTree) (p : Path) : Except Fault Bytes := do
  match ← tree.find p with
  | .file content => return content
  | .directory => throw .isADirectory

/-- The names that a directory lists. -/
def list (tree : FileTree) (p : Path) : Except Fault (List String) := do
  let place ← tree.locate p
  match tree.occupant? place with
  | some .directory =>
    return tree.entries.filterMap fun e => if e.1.dropLast = place then e.1.getLast? else none
  | some (.file _) => throw .notADirectory
  | none => throw .notFound

/-- The number of bytes in the files at or below a path, if the path leads to anything. -/
def size? (tree : FileTree) (p : Path) : Option Nat :=
  match tree.locate p with
  | .error _ => none
  | .ok place =>
    if (tree.occupant? place).isNone then none
    else
      some ((tree.entries.filter fun e => e.1.within place).foldl (fun total e =>
        match e.2 with
        | .directory => total
        | .file content => total + content.length) 0)

/-- Every place below a path, by its path from home, with the content of the files. -/
def contents (tree : FileTree) (p : Path) : List (String × Option Bytes) :=
  match tree.locate p with
  | .error _ => []
  | .ok top =>
    tree.entries.filterMap fun e =>
      if e.1.within top && e.1 != top then
        let name := "/".intercalate (e.1.drop tree.home.length)
        match e.2 with
        | .directory => some (name ++ "/", none)
        | .file content => some (name, some content)
      else none

end FileTree

end ShardKeeper
