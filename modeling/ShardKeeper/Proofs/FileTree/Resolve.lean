import ShardKeeper.Reclaim.Removal
import ShardKeeper.Proofs.Path.Steps

/-!
# Where paths lead

A path leads to a place that its steps alone determine, wherever it leads to any
place at all: what occupies the places on the way decides only whether the walk
can go on.  A removal concerns nothing but what is in and below that place.

## Main definitions

* `Path.Place.resolve` — the place that steps lead to.
* `FileTree.target` — the place that a path leads to.

## Main results

* `FileTree.eq_target_of_locate` — a path leads to its target or nowhere.
* `FileTree.target_join` — the target of a path below another one.
* `FileTree.occupant?_reclaim` — what a removal leaves as it was.
-/

namespace ShardKeeper

/-- The place that steps lead to from a place. -/
def Path.Place.resolve (start : Path.Place) : List String → Path.Place
  | [] => start
  | step :: rest =>
    if step = "." then resolve start rest
    else if step = ".." then resolve start.dropLast rest
    else resolve (start ++ [step]) rest

namespace FileTree

open ShardKeeper.Path (Place)

variable {tree : FileTree} {p : Path} {start place : Place} {name : String}

theorem resolve_append (start : Place) (steps steps' : List String) :
    start.resolve (steps ++ steps') = (start.resolve steps).resolve steps' := by
  induction steps generalizing start with
  | nil => rfl
  | cons step rest ih =>
      rw [List.cons_append, Place.resolve, Place.resolve]
      split
      · exact ih start
      · split
        · exact ih start.dropLast
        · exact ih (start ++ [step])

theorem resolve_plain (h : Path.IsPlainName name) (start : Place) :
    start.resolve [name] = start ++ [name] := by
  rw [Place.resolve, if_neg h.ne_here, if_neg h.ne_up, Place.resolve]

theorem within_iff {inner outer : Place} : inner.within outer = true ↔ outer <+: inner :=
  List.isPrefixOf_iff_prefix

/-- The place that a path leads to. -/
def target (tree : FileTree) (p : Path) : Place := (tree.startOf p).resolve p.steps

theorem eq_resolve_of_locateFrom {steps : List String}
    (h : tree.locateFrom start steps = .ok place) : place = start.resolve steps := by
  induction steps generalizing start with
  | nil => exact (Except.ok.inj h).symm
  | cons step rest ih =>
      rw [locateFrom] at h
      rw [Place.resolve]
      split at h
      · cases h
      · cases h
      · split at h
        · rename_i hhere
          rw [if_pos hhere]
          exact ih h
        · rename_i hhere
          rw [if_neg hhere]
          split at h
          · rename_i hup
            rw [if_pos hup]
            exact ih h
          · rename_i hup
            rw [if_neg hup]
            split at h
            · cases h
            · exact ih h

/-- **A path leads to its target or nowhere.** -/
theorem eq_target_of_locate (h : tree.locate p = .ok place) : place = tree.target p := by
  unfold locate at h
  cases hcheck : tree.checkPath p with
  | error fault =>
      rw [hcheck] at h
      cases h
  | ok =>
      rw [hcheck] at h
      have hplace := eq_resolve_of_locateFrom h
      rw [resolve_append] at hplace
      -- a separator at the end leads nowhere else
      have hstay : ∀ q : Place, q.resolve (if p.isOpen then ["."] else []) = q := by
        intro q
        split <;> simp [Place.resolve]
      rwa [hstay] at hplace

/-- Below a path go the steps of the part. -/
theorem target_join {part : String} (hpart : (⟨part⟩ : Path).isAbsolute = false) :
    tree.target (p.join part) = (tree.target p).resolve (⟨part⟩ : Path).steps := by
  have hstart : tree.startOf (p.join part) = tree.startOf p := by
    rw [startOf, startOf, Path.isAbsolute_join hpart]
  rw [target, hstart, Path.steps_join hpart, resolve_append]
  rfl

theorem target_join_plain (h : Path.IsPlainName name) :
    tree.target (p.join name) = tree.target p ++ [name] := by
  rw [target_join h.isAbsolute, h.steps, resolve_plain h]

/-! ### Removals -/

theorem occupant?_clear (tree : FileTree) {place other : Place}
    (h : other.within place = false) :
    (tree.clear place).occupant? other = tree.occupant? other := by
  unfold occupant? clear
  congr 1
  induction tree.entries with
  | nil => rfl
  | cons e rest ih =>
      obtain ⟨q, entry⟩ := e
      rw [List.filter_cons]
      by_cases hq : other = q
      · subst hq
        simp [h]
      · have hne : (other == q) = false := beq_false_of_ne hq
        split
        · simp only [List.lookup_cons, hne, ih]
        · simp only [List.lookup_cons, hne, ih]

/-- **A removal concerns nothing but what is in and below the target of its path.** -/
theorem occupant?_removeTree (tree : FileTree) (p : Path) {other : Place}
    (h : other.within (tree.target p) = false) :
    (tree.removeTree p).1.occupant? other = tree.occupant? other := by
  unfold removeTree
  split
  · rfl
  · rename_i place hplace
    have htarget := eq_target_of_locate hplace
    split
    · have hclear : (tree.clear place).occupant? other = tree.occupant? other :=
        tree.occupant?_clear (by rw [htarget]; exact h)
      unfold removeDirectory
      split
      · exact hclear
      · rename_i place' hplace'
        -- the same path leads to the same place afterwards
        have htarget' : place' = (tree.clear place).target p := eq_target_of_locate hplace'
        change place' = tree.target p at htarget'
        split
        · exact hclear
        · exact hclear
        · split
          · exact hclear
          · cases other with
            | nil => rfl
            | cons name rest =>
                rw [occupant?_erase (List.cons_ne_nil name rest), htarget', h]
                exact hclear
    · rfl
    · rfl

theorem occupant?_reclaim (tree : FileTree) (p : Path) {other : Place}
    (h : other.within (tree.target p) = false) :
    (tree.reclaim p).1.occupant? other = tree.occupant? other := by
  have hremove := tree.occupant?_removeTree p h
  unfold reclaim
  split <;> rename_i heq <;> rwa [heq] at hremove

end FileTree

end ShardKeeper
