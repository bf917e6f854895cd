import ShardKeeper.Proofs.FileTree.Change

/-!
# Files that stay

A change leaves the file at a place alone when it is made elsewhere.  Creating
directories never touches a file, whatever the path, since nothing is created
where something is.

## Main definitions

* `FileTree.KeepsFile` — the file at a place is the same before and after, or there is none.

## Main results

* `FileTree.keepsFile_createDirectories` — creating directories touches no file.
* `FileTree.keepsFile_write`, `FileTree.keepsFile_rename` — writing and moving elsewhere.
-/

namespace ShardKeeper

open ShardKeeper.Path (Place)

namespace FileTree

variable {tree tree' tree'' : FileTree} {p source target : Path} {place : Place}

/-- The file at a place is the same before and after, or there is none. -/
structure KeepsFile (tree tree' : FileTree) (place : Place) : Prop where
  home : tree'.home = tree.home
  file : ∀ content, tree'.occupant? place = some (.file content) ↔
    tree.occupant? place = some (.file content)

theorem KeepsFile.refl (tree : FileTree) (place : Place) : tree.KeepsFile tree place :=
  ⟨rfl, fun _ => Iff.rfl⟩

theorem KeepsFile.trans (h : tree.KeepsFile tree' place) (h' : tree'.KeepsFile tree'' place) :
    tree.KeepsFile tree'' place :=
  ⟨h'.home.trans h.home, fun content => (h'.file content).trans (h.file content)⟩

/-- A change of one place leaves the files at all others alone. -/
theorem Beside.keepsFile {changed : Place} (h : tree.Beside tree' changed) (hne : place ≠ changed) :
    tree.KeepsFile tree' place :=
  ⟨h.home, fun content => by rw [h.occupant place hne]⟩

/-- A directory that is put where nothing was. -/
theorem keepsFile_set_directory {free : Place} (hfree : tree.occupant? free = none)
    (place : Place) : tree.KeepsFile (tree.set free .directory) place := by
  refine ⟨rfl, fun content => ?_⟩
  have hne : free ≠ [] := by
    rintro rfl
    cases hfree
  rw [occupant?_set hne]
  split
  · rename_i hplace
    rw [hplace, hfree]
    simp
  · exact Iff.rfl

theorem keepsFile_createFrom (tree : FileTree) (start : Place) (steps : List String)
    (place : Place) : tree.KeepsFile (tree.createFrom start steps).1 place := by
  induction steps generalizing tree start with
  | nil => exact .refl tree place
  | cons step rest ih =>
      rw [createFrom]
      split
      · exact ih tree start
      · split
        · exact ih tree start.dropLast
        · split
          · exact .refl tree place
          · dsimp only
            split
            · exact ih tree (start ++ [step])
            · exact .refl tree place
            · rename_i hfree
              exact (keepsFile_set_directory hfree place).trans (ih _ (start ++ [step]))

/-- **Creating directories touches no file.** -/
theorem keepsFile_createDirectories (tree : FileTree) (p : Path) (place : Place) :
    tree.KeepsFile (tree.createDirectories p).1 place := by
  unfold createDirectories
  split
  · exact .refl tree place
  · split
    · have hcreated := tree.keepsFile_createFrom [] (tree.startOf p ++
        ((p.steps.reverse.dropWhile (· = ".")).reverse).dropLast) place
      dsimp only
      split <;> rename_i heq <;> rwa [heq] at hcreated
    · exact tree.keepsFile_createFrom [] _ place

theorem keepsFile_write (tree : FileTree) (content : Bytes) (hne : place ≠ tree.target p) :
    tree.KeepsFile (tree.write p content).1 place :=
  (beside_of_write (Prod.eta (tree.write p content)).symm).keepsFile hne

/-- **A move concerns its two ends** and what is below the place that is left. -/
theorem keepsFile_rename (hsource : ¬tree.target source <+: place)
    (htarget : place ≠ tree.target target) :
    tree.KeepsFile (tree.rename source target).1 place := by
  rcases tree.rename_cases source target with ⟨fault, herror⟩ | ⟨content, -, -, hdir, hmoved⟩
  · rw [herror]
    exact .refl tree place
  · rw [hmoved]
    refine ⟨rfl, fun other => ?_⟩
    have hne : tree.target target ≠ [] := by
      intro hnil
      rw [hnil] at hdir
      exact hdir rfl
    rw [occupant?_set hne, if_neg htarget]
    by_cases hroot : place = []
    · rw [hroot]
      rfl
    · rw [occupant?_erase hroot, if_neg (mt within_iff.mp hsource)]

end FileTree

end ShardKeeper
