import ShardKeeper.Proofs.FileTree.Walk

/-!
# What changes do to a tree

## Main results

* `FileTree.createFrom_prepared`, `FileTree.prepared_of_createDirectories` — creating directories
  creates nothing else, and no others than those on the way.
* `FileTree.write_cases`, `FileTree.rename_cases` — a write and a move change the target of their
  path, or nothing when they fail.
* `FileTree.occupant?_of_write`, `FileTree.read_of_rename` — what is there afterwards.
-/

namespace ShardKeeper

open ShardKeeper.Path (Place)

namespace FileTree

variable {tree tree' : FileTree} {p source target : Path} {start place : Place}
variable {steps : List String} {content : Bytes} {result : Except Fault Unit}

/-! ### Creating directories -/

/-- A new directory in a directory. -/
theorem Grounded.set_directory (h : tree.Grounded) {name : String}
    (hstart : tree.occupant? start = some .directory)
    (hnone : tree.occupant? (start ++ [name]) = none) :
    (tree.set (start ++ [name]) .directory).Grounded ∧
      tree.Prepared (tree.set (start ++ [name]) .directory) (start ++ [name]) := by
  have hne : start ++ [name] ≠ [] := List.append_ne_nil_of_right_ne_nil _ (List.cons_ne_nil _ _)
  have hprepared : tree.Prepared (tree.set (start ++ [name]) .directory) (start ++ [name]) := by
    refine ⟨rfl, fun place => ?_⟩
    rw [occupant?_set hne]
    split
    · rename_i heq
      exact Or.inr ⟨heq ▸ hnone, rfl, heq ▸ List.prefix_refl _⟩
    · exact Or.inl rfl
  refine ⟨⟨fun place entry hplace => ?_, hprepared.eq_of_some h.home, h.homeNames⟩, hprepared⟩
  rw [occupant?_set hne] at hplace
  split at hplace
  · rename_i heq
    rw [heq, List.dropLast_concat]
    exact hprepared.eq_of_some hstart
  · exact hprepared.eq_of_some (h.parent place entry hplace)

/-- **Creating directories creates nothing else**, and none that the path does not go through. -/
theorem createFrom_prepared (hg : tree.Grounded) (hstart : tree.occupant? start = some .directory)
    (hup : ".." ∉ steps) :
    (tree.createFrom start steps).1.Grounded ∧
      tree.Prepared (tree.createFrom start steps).1 (start ++ steps.filter (· ≠ ".")) := by
  induction steps generalizing tree start with
  | nil => exact ⟨hg, .refl tree _⟩
  | cons step rest ih =>
      rw [List.mem_cons, not_or] at hup
      rw [createFrom, append_filter_cons start step rest]
      by_cases hhere : step = "."
      · rw [if_pos hhere]
        simpa [hhere] using ih hg hstart hup.2
      · rw [if_neg hhere, if_neg (Ne.symm hup.1)]
        have hstep : [step].filter (· ≠ ".") = [step] := by simp [hhere]
        rw [hstep]
        split
        · exact ⟨hg, .refl tree _⟩
        · dsimp only
          split
          · rename_i hnext
            exact ih hg hnext hup.2
          · exact ⟨hg, .refl tree _⟩
          · rename_i hnext
            obtain ⟨hg', hprepared⟩ := hg.set_directory hstart hnext
            have hstart' : (tree.set (start ++ [step]) .directory).occupant? (start ++ [step]) =
                some .directory := by
              rw [occupant?_set (by simp), if_pos rfl]
            obtain ⟨hg'', hrest⟩ := ih hg' hstart' hup.2
            exact ⟨hg'', (hprepared.mono (List.prefix_append _ _)).trans hrest⟩

/-- Directories are created from the root on. Whatever part of the way to a path they are created
for, they are on the way to its target. -/
theorem createFrom_root_prepared (hg : tree.Grounded) (hup : ".." ∉ p.steps)
    (hsteps : steps <+: tree.startOf p ++ p.steps) :
    (tree.createFrom [] steps).1.Grounded ∧
      tree.Prepared (tree.createFrom [] steps).1 (tree.target p) := by
  have hstart : "." ∉ tree.startOf p ∧ ".." ∉ tree.startOf p := by
    unfold startOf
    split
    · exact ⟨List.not_mem_nil, List.not_mem_nil⟩
    · exact hg.homeNames
  have hall : ".." ∉ steps := by
    intro hmem
    rcases List.mem_append.mp (hsteps.subset hmem) with hmem | hmem
    · exact hstart.2 hmem
    · exact hup hmem
  have hroot : tree.occupant? [] = some .directory := rfl
  obtain ⟨hg', hprepared⟩ := createFrom_prepared hg hroot hall
  refine ⟨hg', hprepared.mono ?_⟩
  have hnames : (tree.startOf p ++ p.steps).filter (· ≠ ".") = tree.target p := by
    rw [target_eq hup, List.filter_append, Path.names, List.filter_eq_self.mpr]
    intro name hname
    rw [decide_eq_true_eq]
    rintro rfl
    exact hstart.1 hname
  rw [← hnames, List.nil_append]
  exact hsteps.filter _

/-- A path that ends in a name is created name by name. -/
theorem createDirectories_of_name (hcheck : tree.checkPath p = .ok ())
    (hlast : p.steps.getLast? ≠ some ".") :
    tree.createDirectories p = tree.createFrom [] (tree.startOf p ++ p.steps) := by
  unfold createDirectories
  rw [hcheck]
  dsimp only
  rw [if_neg hlast]

/-- **Creating the directories of a path** creates some of those on the way to its target. -/
theorem prepared_of_createDirectories (hg : tree.Grounded) (hup : ".." ∉ p.steps)
    (h : tree.createDirectories p = (tree', result)) :
    tree'.Grounded ∧ tree.Prepared tree' (tree.target p) := by
  obtain rfl : (tree.createDirectories p).1 = tree' := congrArg Prod.fst h
  unfold createDirectories
  split
  · exact ⟨hg, .refl tree _⟩
  · split
    · -- the last step leads nowhere, and the last name is not created
      have hnamed : ((p.steps.reverse.dropWhile (· = ".")).reverse).dropLast <+: p.steps := by
        refine (List.dropLast_prefix _).trans ?_
        rw [← List.reverse_suffix, List.reverse_reverse]
        exact List.dropWhile_suffix _
      have hsteps := (List.prefix_append_right_inj (tree.startOf p)).mpr hnamed
      have hcreated := createFrom_root_prepared hg hup hsteps
      dsimp only
      split <;> rename_i heq <;> rwa [heq] at hcreated
    · exact createFrom_root_prepared hg hup (List.prefix_refl _)

/-! ### Writing and moving -/

/-- A write changes the target of its path, or nothing. -/
theorem write_cases (tree : FileTree) (p : Path) (content : Bytes) :
    (∃ fault, tree.write p content = (tree, .error fault)) ∨
      tree.target p ≠ [] ∧ tree.occupant? (tree.target p) ≠ some .directory ∧
        tree.write p content = (tree.set (tree.target p) (.file content), .ok ()) := by
  unfold write
  split
  · exact Or.inl ⟨_, rfl⟩
  · rename_i place hplace
    rw [← eq_target_of_locate hplace]
    split
    · exact Or.inl ⟨_, rfl⟩
    · rename_i hdirectory
      refine Or.inr ⟨?_, hdirectory, rfl⟩
      rintro rfl
      exact hdirectory rfl

theorem beside_of_write (h : tree.write p content = (tree', result)) :
    tree.Beside tree' (tree.target p) := by
  rcases tree.write_cases p content with ⟨fault, herror⟩ | ⟨hne, -, hwritten⟩
  · obtain ⟨rfl, -⟩ := Prod.mk.inj (h.symm.trans herror)
    exact .refl tree' _
  · obtain ⟨rfl, -⟩ := Prod.mk.inj (h.symm.trans hwritten)
    refine ⟨rfl, fun other hother => ?_⟩
    rw [occupant?_set hne, if_neg hother]

/-- A path that leads to a directory, if to anything, cannot be written to. -/
theorem write_of_directory
    (h : ∀ place, tree.locate p = .ok place → tree.occupant? place = some .directory)
    (content : Bytes) : ∃ fault, tree.write p content = (tree, .error fault) := by
  unfold write
  split
  · exact ⟨_, rfl⟩
  · rename_i place hplace
    rw [h place hplace]
    exact ⟨_, rfl⟩

/-- A move puts what its source reads in the place of its target, or it changes nothing. -/
theorem rename_cases (tree : FileTree) (source target : Path) :
    (∃ fault, tree.rename source target = (tree, .error fault)) ∨
      ∃ content, tree.read source = .ok content ∧
        tree.locate target = .ok (tree.target target) ∧
        tree.occupant? (tree.target target) ≠ some .directory ∧
        tree.rename source target =
          ((tree.erase (tree.target source)).set (tree.target target) (.file content), .ok ()) := by
  unfold rename
  split
  · rename_i content old new hread hold hnew
    obtain rfl := eq_target_of_locate hold
    obtain rfl := eq_target_of_locate hnew
    split
    · exact Or.inl ⟨_, rfl⟩
    · rename_i hdirectory
      exact Or.inr ⟨content, hread, hnew, hdirectory, rfl⟩
  · exact Or.inl ⟨_, rfl⟩
  · exact Or.inl ⟨_, rfl⟩
  · exact Or.inl ⟨_, rfl⟩

theorem occupant?_of_write (h : tree.write p content = (tree', .ok ())) :
    tree'.occupant? (tree'.target p) = some (.file content) := by
  rcases tree.write_cases p content with ⟨fault, herror⟩ | ⟨hne, -, hwritten⟩
  · cases h.symm.trans herror
  · obtain ⟨rfl, -⟩ := Prod.mk.inj (h.symm.trans hwritten)
    have htarget : (tree.set (tree.target p) (.file content)).target p = tree.target p :=
      target_of_home_eq rfl p
    rw [htarget, occupant?_set hne, if_pos rfl]

/-- **A file that was moved is read in its new place**, if it did not lie on the way to that. -/
theorem read_of_rename (hup : ".." ∉ target.steps)
    (hsource : tree.occupant? (tree.target source) = some (.file content))
    (hapart : ¬tree.target source <+: tree.target target)
    (hmove : tree.rename source target = (tree', .ok ())) : tree'.read target = .ok content := by
  rcases tree.rename_cases source target with ⟨fault, herror⟩ | ⟨found, hread, hplace, hdir, hmoved⟩
  · cases hmove.symm.trans herror
  obtain ⟨htree, -⟩ := Prod.mk.inj (hmove.symm.trans hmoved)
  have hfound := occupant?_of_read hread
  obtain rfl : content = found := Entry.file.inj (Option.some.inj (hsource.symm.trans hfound))
  have hne : tree.target target ≠ [] := by
    intro hnil
    rw [hnil] at hdir
    exact hdir rfl
  have hhome : tree'.home = tree.home := by
    rw [htree]
    rfl
  have hnew : tree'.occupant? (tree.target target) = some (.file content) := by
    rw [htree, occupant?_set hne, if_pos rfl]
  -- on the way to the new place nothing was moved away
  have hway : ∀ q, q <+: tree.target target → tree.occupant? q = some .directory →
      tree'.occupant? q = some .directory := by
    intro q hq hdirectory
    have hother : q ≠ tree.target target := by
      rintro rfl
      exact hdir hdirectory
    rw [htree, occupant?_set hne, if_neg hother]
    by_cases hnil : q = []
    · subst hnil
      rfl
    · rw [occupant?_erase hnil, if_neg, hdirectory]
      intro hwithin
      exact hapart ((within_iff.mp hwithin).trans hq)
  rw [read_of_locate (locate_of_directories hup hhome hway hplace), hnew]
  rfl

end FileTree

end ShardKeeper
