import Mathlib.Data.List.Induction
import ShardKeeper.Proofs.FileTree.Resolve

/-!
# Walks through a file tree

What a path reads is decided by the places on the way to its target.  Here two
trees are compared that differ elsewhere, or in that one of them has some more
directories.  All paths are ones that never lead up.

## Main definitions

* `FileTree.Grounded` — a tree as a file system can hold it.
* `FileTree.Prepared` — more directories on the way to a place.
* `FileTree.Beside` — a change of one place.

## Main results

* `FileTree.read_congr`, `FileTree.Beside.read_eq` — changes aside from a path.
* `FileTree.locate_of_directories` — a path that leads to its target still does.
* `FileTree.Prepared.read_cases` — a path whose directories were created: it reads the same, unless
  a name in it is too long, which is noticed only now.
-/

namespace ShardKeeper

open ShardKeeper.Path (Place)

namespace FileTree

variable {tree tree' tree'' : FileTree} {p : Path} {start place up : Place} {steps : List String}

/-! ### Grounded trees -/

/-- A tree as a file system can hold it: whatever there is lies in a directory, the place that
relative paths start from is a directory, and it is given by names. -/
structure Grounded (tree : FileTree) : Prop where
  parent : ∀ (place : Place) (entry : Entry), tree.occupant? place = some entry →
    tree.occupant? place.dropLast = some .directory
  home : tree.occupant? tree.home = some .directory
  homeNames : "." ∉ tree.home ∧ ".." ∉ tree.home

namespace Grounded

/-- It is enough to look at the entries. -/
theorem of_entries (hentries : ∀ e ∈ tree.entries, tree.occupant? e.1.dropLast = some .directory)
    (hhome : tree.occupant? tree.home = some .directory)
    (hnames : "." ∉ tree.home ∧ ".." ∉ tree.home) : tree.Grounded := by
  refine ⟨fun place entry hplace => ?_, hhome, hnames⟩
  unfold occupant? at hplace
  split at hplace
  · rename_i hroot
    rw [List.isEmpty_iff.mp hroot]
    rfl
  · obtain ⟨front, back, hsplit, -⟩ := List.lookup_eq_some_iff.mp hplace
    exact hentries (place, entry) (by rw [hsplit]; exact List.mem_append_right _ List.mem_cons_self)

/-- Above whatever there is are directories. -/
theorem directory_above (h : tree.Grounded) {below : List String} (hne : below ≠ []) {entry : Entry}
    (hbelow : tree.occupant? (place ++ below) = some entry) :
    tree.occupant? place = some .directory := by
  induction below using List.reverseRecOn generalizing entry with
  | nil => exact absurd rfl hne
  | append_singleton below name ih =>
      have hparent := h.parent _ entry hbelow
      rw [← List.append_assoc, List.dropLast_concat] at hparent
      by_cases hnil : below = []
      · rwa [hnil, List.append_nil] at hparent
      · exact ih hnil hparent

/-- Below nothing there is nothing. -/
theorem unoccupied_below (h : tree.Grounded) (hplace : tree.occupant? place = none)
    (below : List String) : tree.occupant? (place ++ below) = none := by
  by_cases hnil : below = []
  · rwa [hnil, List.append_nil]
  · cases hbelow : tree.occupant? (place ++ below) with
    | none => rfl
    | some entry =>
        rw [h.directory_above hnil hbelow] at hplace
        cases hplace

theorem startOf (h : tree.Grounded) (p : Path) :
    tree.occupant? (tree.startOf p) = some .directory := by
  unfold FileTree.startOf
  split
  · rfl
  · exact h.home

end Grounded

/-! ### Steps that never lead up -/

theorem resolve_of_notMem (h : ".." ∉ steps) (start : Place) :
    start.resolve steps = start ++ steps.filter (· ≠ ".") := by
  induction steps generalizing start with
  | nil => simp [Place.resolve]
  | cons step rest ih =>
      rw [List.mem_cons, not_or] at h
      rw [Place.resolve, if_neg (Ne.symm h.1)]
      by_cases hhere : step = "."
      · rw [if_pos hhere, ih h.2]
        simp [hhere]
      · rw [if_neg hhere, ih h.2]
        simp [hhere]

theorem target_eq (h : ".." ∉ p.steps) (tree : FileTree) :
    tree.target p = tree.startOf p ++ p.names := resolve_of_notMem h _

theorem target_of_home_eq (h : tree'.home = tree.home) (p : Path) :
    tree'.target p = tree.target p := by
  rw [target, target, startOf, startOf, h]

/-- The names of a path and where it starts from say where it leads to. -/
theorem target_of_names_eq {q : Path} (hq : ".." ∉ q.steps) (h : q.isAbsolute = p.isAbsolute)
    (tree : FileTree) : tree.target q = tree.startOf p ++ q.names := by
  rw [target_eq hq, startOf, startOf, h]

/-- One step of a walk: a name that is too long ends it. -/
theorem locateFrom_cons {step : String} (hstart : tree.occupant? start = some .directory)
    (hup : step ≠ "..") (rest : List String) :
    tree.locateFrom start (step :: rest) =
      if nameLimit < step.utf8ByteSize then .error .nameTooLong
      else tree.locateFrom (start ++ [step].filter (· ≠ ".")) rest := by
  rw [locateFrom, hstart]
  dsimp only
  rw [if_neg hup]
  by_cases hhere : step = "."
  · subst hhere
    rw [if_pos rfl, if_neg (by decide)]
    simp
  · rw [if_neg hhere]
    simp [hhere]

/-- The place where a walk ends, and the place where it is after its first step. -/
theorem append_filter_cons (start : Place) (step : String) (rest : List String) :
    start ++ (step :: rest).filter (· ≠ ".") =
      start ++ [step].filter (· ≠ ".") ++ rest.filter (· ≠ ".") := by
  rw [← List.singleton_append, List.filter_append, List.append_assoc]

/-- The steps that a path is looked up by. -/
def lookupSteps (p : Path) : List String := p.steps ++ if p.isOpen then ["."] else []

theorem notMem_lookupSteps (h : ".." ∉ p.steps) : ".." ∉ lookupSteps p := by
  rw [lookupSteps, List.mem_append, not_or]
  refine ⟨h, ?_⟩
  split <;> simp

theorem filter_lookupSteps (p : Path) : (lookupSteps p).filter (· ≠ ".") = p.names := by
  rw [lookupSteps, List.filter_append, Path.names]
  split <;> simp

theorem target_eq_lookup (h : ".." ∉ p.steps) (tree : FileTree) :
    tree.target p = tree.startOf p ++ (lookupSteps p).filter (· ≠ ".") := by
  rw [filter_lookupSteps, target_eq h]

theorem locate_eq (tree : FileTree) (p : Path) :
    tree.locate p =
      match tree.checkPath p with
      | .error fault => .error fault
      | .ok () => tree.locateFrom (tree.startOf p) (lookupSteps p) := by
  unfold locate
  cases tree.checkPath p <;> rfl

/-- What there is to read at an occupied place or at none. -/
def contentOf : Option Entry → Except Fault Bytes
  | none => .error .notFound
  | some .directory => .error .isADirectory
  | some (.file content) => .ok content

theorem read_of_error {fault : Fault} (h : tree.locate p = .error fault) :
    tree.read p = .error fault := by
  unfold read find
  rw [h]
  rfl

theorem read_of_locate (h : tree.locate p = .ok place) :
    tree.read p = contentOf (tree.occupant? place) := by
  unfold read find
  rw [show tree.locate p = pure place from h, pure_bind]
  cases tree.occupant? place with
  | none => rfl
  | some entry => cases entry <;> rfl

/-- What was read is what the target holds. -/
theorem occupant?_of_read {content : Bytes} (h : tree.read p = .ok content) :
    tree.occupant? (tree.target p) = some (.file content) := by
  cases hplace : tree.locate p with
  | error fault =>
      rw [read_of_error hplace] at h
      cases h
  | ok place =>
      rw [read_of_locate hplace, eq_target_of_locate hplace] at h
      cases hentry : tree.occupant? (tree.target p) with
      | none =>
          rw [hentry] at h
          cases h
      | some entry =>
          rw [hentry] at h
          cases entry with
          | directory => cases h
          | file found => rw [Except.ok.inj h]

theorem checkPath_of_home_eq (h : tree'.home = tree.home) (p : Path) :
    tree'.checkPath p = tree.checkPath p := by
  unfold checkPath width
  rw [h]

/-- A walk goes on from where its first part ends. -/
theorem locateFrom_append (tree : FileTree) (start : Place) (steps steps' : List String) :
    tree.locateFrom start (steps ++ steps') =
      match tree.locateFrom start steps with
      | .error fault => .error fault
      | .ok place => tree.locateFrom place steps' := by
  induction steps generalizing start with
  | nil => rfl
  | cons step rest ih =>
      rw [List.cons_append, locateFrom, locateFrom]
      cases tree.occupant? start with
      | none => rfl
      | some entry =>
          cases entry with
          | file content => rfl
          | directory =>
              dsimp only
              split
              · exact ih _
              · split
                · exact ih _
                · split
                  · rfl
                  · exact ih _

/-! ### Paths to directories -/

/-- A path that goes through no name leads to the directory that it starts from. -/
theorem Grounded.directory_of_names_nil (hg : tree.Grounded) (hup : ".." ∉ p.steps)
    (hnames : p.names = []) (hplace : tree.locate p = .ok place) :
    tree.occupant? place = some .directory := by
  rw [eq_target_of_locate hplace, target_eq hup, hnames, List.append_nil]
  exact hg.startOf p

/-- A path that leads up at its end leads to a directory. -/
theorem Grounded.directory_of_up (hg : tree.Grounded) (hsteps : p.steps = steps ++ [".."])
    (hplace : tree.locate p = .ok place) : tree.occupant? place = some .directory := by
  rw [locate_eq] at hplace
  split at hplace
  · cases hplace
  · rw [lookupSteps, hsteps, List.append_assoc, locateFrom_append] at hplace
    split at hplace
    · cases hplace
    · rename_i below _
      -- what is below is a directory, or the walk would end there
      rw [List.singleton_append, locateFrom] at hplace
      split at hplace
      · cases hplace
      · cases hplace
      · rename_i hbelow
        have hdirectory := hg.parent below _ hbelow
        rw [if_neg (by decide), if_pos rfl] at hplace
        split at hplace
        · rw [locateFrom, hdirectory] at hplace
          dsimp only at hplace
          rw [if_pos rfl, locateFrom] at hplace
          rw [← Except.ok.inj hplace]
          exact hdirectory
        · rw [locateFrom] at hplace
          rw [← Except.ok.inj hplace]
          exact hdirectory

/-! ### Changes aside from a path -/

/-- A walk depends on the places on the way only. -/
theorem locateFrom_congr (hup : ".." ∉ steps)
    (h : ∀ q, q <+: start ++ steps.filter (· ≠ ".") → tree'.occupant? q = tree.occupant? q) :
    tree'.locateFrom start steps = tree.locateFrom start steps := by
  induction steps generalizing start with
  | nil => rfl
  | cons step rest ih =>
      rw [List.mem_cons, not_or] at hup
      have hstart := h start (List.prefix_append _ _)
      rw [append_filter_cons start step rest] at h
      have hnext := ih hup.2 h
      cases hocc : tree.occupant? start with
      | none => rw [locateFrom, locateFrom, hstart, hocc]
      | some entry =>
          cases entry with
          | file content => rw [locateFrom, locateFrom, hstart, hocc]
          | directory =>
              rw [locateFrom_cons hocc (Ne.symm hup.1),
                locateFrom_cons (hstart.trans hocc) (Ne.symm hup.1), hnext]

theorem read_congr (hup : ".." ∉ p.steps) (hhome : tree'.home = tree.home)
    (h : ∀ q, q <+: tree.target p → tree'.occupant? q = tree.occupant? q) :
    tree'.read p = tree.read p := by
  have hstart : tree'.startOf p = tree.startOf p := by
    rw [startOf, startOf, hhome]
  have hwalk : tree'.locateFrom (tree.startOf p) (lookupSteps p) =
      tree.locateFrom (tree.startOf p) (lookupSteps p) :=
    locateFrom_congr (notMem_lookupSteps hup) (by rwa [← target_eq_lookup hup])
  have hlocate : tree'.locate p = tree.locate p := by
    rw [locate_eq, locate_eq, checkPath_of_home_eq hhome, hstart, hwalk]
  cases hplace : tree.locate p with
  | error fault => rw [read_of_error hplace, read_of_error (hlocate.trans hplace)]
  | ok place =>
      have htarget := eq_target_of_locate hplace
      rw [read_of_locate hplace, read_of_locate (hlocate.trans hplace),
        h place (htarget ▸ List.prefix_refl _)]

/-- A walk that gets through still does if the directories on the way are still there. -/
theorem locateFrom_of_directories (hup : ".." ∉ steps)
    (h : ∀ q, q <+: start ++ steps.filter (· ≠ ".") → tree.occupant? q = some .directory →
      tree'.occupant? q = some .directory)
    (hplace : tree.locateFrom start steps = .ok place) :
    tree'.locateFrom start steps = .ok place := by
  induction steps generalizing start with
  | nil => exact hplace
  | cons step rest ih =>
      rw [List.mem_cons, not_or] at hup
      have hstart : tree.occupant? start = some .directory := by
        rw [locateFrom] at hplace
        split at hplace
        · cases hplace
        · cases hplace
        · assumption
      have hstart' := h start (List.prefix_append _ _) hstart
      rw [append_filter_cons start step rest] at h
      rw [locateFrom_cons hstart (Ne.symm hup.1)] at hplace
      rw [locateFrom_cons hstart' (Ne.symm hup.1)]
      split
      · rename_i hlong
        rw [if_pos hlong] at hplace
        cases hplace
      · rename_i hshort
        rw [if_neg hshort] at hplace
        exact ih hup.2 h hplace

theorem locate_of_directories (hup : ".." ∉ p.steps) (hhome : tree'.home = tree.home)
    (h : ∀ q, q <+: tree.target p → tree.occupant? q = some .directory →
      tree'.occupant? q = some .directory)
    (hplace : tree.locate p = .ok place) : tree'.locate p = .ok place := by
  rw [locate_eq, checkPath_of_home_eq hhome]
  rw [locate_eq] at hplace
  cases hcheck : tree.checkPath p with
  | error fault =>
      rw [hcheck] at hplace
      cases hplace
  | ok =>
      rw [hcheck] at hplace
      have hstart : tree'.startOf p = tree.startOf p := by
        rw [startOf, startOf, hhome]
      dsimp only at hplace ⊢
      rw [hstart]
      exact locateFrom_of_directories (notMem_lookupSteps hup) (by rwa [← target_eq_lookup hup])
        hplace

/-- A change of one place. -/
structure Beside (tree tree' : FileTree) (place : Place) : Prop where
  home : tree'.home = tree.home
  occupant : ∀ other, other ≠ place → tree'.occupant? other = tree.occupant? other

namespace Beside

theorem refl (tree : FileTree) (place : Place) : tree.Beside tree place :=
  ⟨rfl, fun _ _ => rfl⟩

theorem trans (h : tree.Beside tree' place) (h' : tree'.Beside tree'' place) :
    tree.Beside tree'' place :=
  ⟨h'.home.trans h.home, fun other hother => (h'.occupant other hother).trans
    (h.occupant other hother)⟩

/-- A path that the changed place is not on the way of reads the same. -/
theorem read_eq (h : tree.Beside tree' place) (hup : ".." ∉ p.steps)
    (hplace : ¬place <+: tree.target p) : tree'.read p = tree.read p := by
  refine read_congr hup h.home fun q hq => h.occupant q ?_
  rintro rfl
  exact hplace hq

end Beside

/-! ### More directories -/

/-- A name that is too long lies in a directory that is not there, if nothing is on the way to
it. -/
theorem Grounded.unoccupied_of_long (hg : tree.Grounded) (hstart : tree.occupant? start = none)
    (hlong : ∃ step ∈ steps, nameLimit < step.utf8ByteSize) :
    tree.occupant? (start ++ steps.filter (· ≠ ".")).dropLast = none := by
  obtain ⟨step, hstep, hlimit⟩ := hlong
  have hname : step ≠ "." := by
    rintro rfl
    exact absurd hlimit (by decide)
  have hne : steps.filter (· ≠ ".") ≠ [] :=
    List.ne_nil_of_mem (List.mem_filter.mpr ⟨hstep, decide_eq_true hname⟩)
  rw [List.dropLast_append_of_ne_nil hne]
  exact hg.unoccupied_below hstart _

/-- The same tree with more directories on the way to the place `up`. -/
structure Prepared (tree tree' : FileTree) (up : Place) : Prop where
  home : tree'.home = tree.home
  occupant : ∀ place, tree'.occupant? place = tree.occupant? place ∨
    tree.occupant? place = none ∧ tree'.occupant? place = some .directory ∧ place <+: up

namespace Prepared

theorem refl (tree : FileTree) (up : Place) : tree.Prepared tree up :=
  ⟨rfl, fun _ => Or.inl rfl⟩

theorem trans (h : tree.Prepared tree' up) (h' : tree'.Prepared tree'' up) :
    tree.Prepared tree'' up where
  home := h'.home.trans h.home
  occupant := by
    intro place
    rcases h'.occupant place with hsame | ⟨hnone, hnew, hup⟩
    · rw [hsame]
      exact h.occupant place
    · rcases h.occupant place with hsame | ⟨-, hdirectory, -⟩
      · exact Or.inr ⟨hsame ▸ hnone, hnew, hup⟩
      · rw [hdirectory] at hnone
        cases hnone

theorem mono {farther : Place} (h : tree.Prepared tree' up) (hup : up <+: farther) :
    tree.Prepared tree' farther :=
  ⟨h.home, fun place => (h.occupant place).imp_right fun ⟨hnone, hnew, hplace⟩ =>
    ⟨hnone, hnew, hplace.trans hup⟩⟩

/-- What is there stays. -/
theorem eq_of_some (h : tree.Prepared tree' up) {entry : Entry}
    (hplace : tree.occupant? place = some entry) : tree'.occupant? place = some entry := by
  rcases h.occupant place with hsame | ⟨hnone, -, -⟩
  · rw [hsame, hplace]
  · rw [hplace] at hnone
    cases hnone

/-- A walk from where nothing was before. -/
theorem locateFrom_fresh (h : tree.Prepared tree' up) (hg : tree.Grounded) (hup : ".." ∉ steps)
    (hstart : tree.occupant? start = none) :
    tree'.locateFrom start steps = .error .notFound ∨
      tree'.locateFrom start steps = .ok (start ++ steps.filter (· ≠ ".")) ∨
      tree'.locateFrom start steps = .error .nameTooLong ∧
        ∃ step ∈ steps, nameLimit < step.utf8ByteSize := by
  induction steps generalizing start with
  | nil => exact Or.inr (Or.inl (by simp [locateFrom]))
  | cons step rest ih =>
      rw [List.mem_cons, not_or] at hup
      rcases h.occupant start with hsame | ⟨-, hdirectory, -⟩
      · rw [locateFrom, hsame, hstart]
        exact Or.inl rfl
      · rw [locateFrom_cons hdirectory (Ne.symm hup.1), append_filter_cons start step rest]
        split
        · exact Or.inr (Or.inr ⟨rfl, step, List.mem_cons_self, by assumption⟩)
        · rcases ih hup.2 (hg.unoccupied_below hstart _) with hnone | hok | ⟨hlong, s, hs, hs'⟩
          · exact Or.inl hnone
          · exact Or.inr (Or.inl hok)
          · exact Or.inr (Or.inr ⟨hlong, s, List.mem_cons_of_mem _ hs, hs'⟩)

/-- A walk goes as before, but for one that has come to nothing: then it may go on until it comes to
nothing again, to the end, or to a name that is too long. -/
theorem locateFrom_cases (h : tree.Prepared tree' up) (hg : tree.Grounded) (hup : ".." ∉ steps)
    (start : Place) :
    tree'.locateFrom start steps = tree.locateFrom start steps ∨
      tree.locateFrom start steps = .error .notFound ∧
        tree.occupant? (start ++ steps.filter (· ≠ ".")) = none ∧
        (tree'.locateFrom start steps = .error .notFound ∨
          tree'.locateFrom start steps = .ok (start ++ steps.filter (· ≠ ".")) ∨
          tree'.locateFrom start steps = .error .nameTooLong ∧
            tree.occupant? (start ++ steps.filter (· ≠ ".")).dropLast = none ∧
            ∃ step ∈ steps, nameLimit < step.utf8ByteSize) := by
  induction steps generalizing start with
  | nil => exact Or.inl rfl
  | cons step rest ih =>
      cases hstart : tree.occupant? start with
      | none =>
          refine Or.inr ⟨by rw [locateFrom, hstart], hg.unoccupied_below hstart _, ?_⟩
          rcases h.locateFrom_fresh hg hup hstart with hnone | hok | ⟨hlong, hstep⟩
          · exact Or.inl hnone
          · exact Or.inr (Or.inl hok)
          · exact Or.inr (Or.inr ⟨hlong, hg.unoccupied_of_long hstart hstep, hstep⟩)
      | some entry =>
          have hstart' := h.eq_of_some hstart
          rw [List.mem_cons, not_or] at hup
          cases entry with
          | file content =>
              left
              rw [locateFrom, locateFrom, hstart, hstart']
          | directory =>
              rw [locateFrom_cons hstart (Ne.symm hup.1), locateFrom_cons hstart' (Ne.symm hup.1),
                append_filter_cons start step rest]
              split
              · exact Or.inl rfl
              · rcases ih hup.2 _ with hsame | ⟨hnone, hocc, hagain | hok | ⟨hlong, hdir, s, hs⟩⟩
                · exact Or.inl hsame
                · exact Or.inr ⟨hnone, hocc, Or.inl hagain⟩
                · exact Or.inr ⟨hnone, hocc, Or.inr (Or.inl hok)⟩
                · exact Or.inr ⟨hnone, hocc,
                    Or.inr (Or.inr ⟨hlong, hdir, s, List.mem_cons_of_mem _ hs.1, hs.2⟩)⟩

/-- **A path whose directories were created reads the same, unless a name in it is too long.**
Before that was hidden because the directory of the path was missing. -/
theorem read_cases (h : tree.Prepared tree' up) (hg : tree.Grounded) (hup : ".." ∉ p.steps)
    (hbeyond : ¬tree.target p <+: up) :
    tree'.read p = tree.read p ∨
      tree.read p = .error .notFound ∧ tree'.read p = .error .nameTooLong ∧
        tree.occupant? (tree.target p).dropLast = none ∧
        ∃ step ∈ p.steps, nameLimit < step.utf8ByteSize := by
  have htarget := target_eq_lookup hup tree
  have hstart : tree'.startOf p = tree.startOf p := by
    rw [startOf, startOf, h.home]
  have hend : tree'.occupant? (tree.target p) = tree.occupant? (tree.target p) :=
    (h.occupant _).resolve_right fun hnew => hbeyond hnew.2.2
  have hlocate := locate_eq tree p
  have hlocate' := locate_eq tree' p
  rw [checkPath_of_home_eq h.home, hstart] at hlocate'
  cases hcheck : tree.checkPath p with
  | error fault =>
      rw [hcheck] at hlocate hlocate'
      exact Or.inl (by rw [read_of_error hlocate, read_of_error hlocate'])
  | ok =>
      rw [hcheck] at hlocate hlocate'
      dsimp only at hlocate hlocate'
      have hwalk := h.locateFrom_cases hg (notMem_lookupSteps hup) (tree.startOf p)
      rw [← hlocate, ← hlocate', ← htarget] at hwalk
      rcases hwalk with hsame | ⟨hnone, hocc, hagain | hok | ⟨hlong, hdir, step, hstep, hlimit⟩⟩
      · left
        cases hplace : tree.locate p with
        | error fault => rw [read_of_error hplace, read_of_error (hsame.trans hplace)]
        | ok place =>
            rw [read_of_locate hplace, read_of_locate (hsame.trans hplace),
              eq_target_of_locate hplace, hend]
      · exact Or.inl (by rw [read_of_error hnone, read_of_error hagain])
      · -- the directories are there by now, and the file is still missing
        left
        rw [read_of_error hnone, read_of_locate hok, hend, hocc]
        rfl
      · refine Or.inr ⟨read_of_error hnone, read_of_error hlong, hdir, step, ?_, hlimit⟩
        rcases List.mem_append.mp hstep with hmem | hmem
        · exact hmem
        · -- the step behind a separator at the end is short
          split at hmem
          · rw [List.mem_singleton.mp hmem] at hlimit
            exact absurd hlimit (by decide)
          · cases hmem

end Prepared

end FileTree

end ShardKeeper
