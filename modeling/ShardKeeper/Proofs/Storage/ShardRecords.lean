import ShardKeeper.Proofs.FileTree.Files
import ShardKeeper.Proofs.Path.Joined
import ShardKeeper.Proofs.Storage.RecordFile
import ShardKeeper.Proofs.Text.Decimal
import ShardKeeper.Storage.Layout

/-!
# The records of different shards

The records of all shards lie in one directory, each under a name made of the
table and the index.  A table may be called almost anything, so its name may
look like that of another table with an index, or like the name of a record.
It cannot be mistaken all the same: the last underscore is the one in front of the index.

## Main definitions

* `ShardId.stem`, `ShardId.fileName` — the names of the files of a shard.
* `RecordFile.paths` — the record of a shard and its temporary file.
* `RecordFile.StoredByOthers` — what is left when other shards store their records.

## Main results

* `RecordFile.temporaryPath_recordPath` — the temporary file lies beside the record.
* `RecordFile.target_ne_of_ne` — no two shards have a file in the same place.
* `RecordFile.StoredByOthers.keepsFile` — the files of a shard while others store theirs.
* `RecordFile.records_apart` — all of it.
-/

namespace ShardKeeper

open ShardKeeper.Path (Place separator)

namespace ShardId

variable {s t : ShardId} {extension : String}

/-- The name of a file that is kept for a shard, less its extension. -/
def stem (s : ShardId) : List Char := s.table.toList ++ '_' :: Decimal.ofNat s.index

/-- The name of a file that is kept for a shard. -/
def fileName (s : ShardId) (extension : String) : String :=
  String.ofList (s.stem ++ '.' :: extension.toList)

theorem stem_ne_nil (s : ShardId) : s.stem ≠ [] := by
  simp [stem]

theorem stem_ne_here (s : ShardId) : s.stem ≠ ['.'] := by
  intro heq
  have hmem : '_' ∈ s.stem := by simp [stem]
  rw [heq] at hmem
  exact absurd hmem (by decide)

theorem notMem_digits {c : Char} (hc : c.isDigit = false) (n : ℕ) : c ∉ Decimal.ofNat n := by
  intro hmem
  rw [Decimal.isDigit_of_mem_ofNat hmem] at hc
  cases hc

theorem separator_notMem_stem (h : separator ∉ s.table.toList) : separator ∉ s.stem := by
  rw [stem, List.mem_append, List.mem_cons, not_or, not_or]
  exact ⟨h, by decide, notMem_digits (by decide) s.index⟩

/-- **A stem belongs to one shard**: no digit is an underscore. -/
theorem stem_injective : Function.Injective stem := by
  intro s t h
  have hsplit : ∀ r : ShardId, r.stem = (r.table.toList ++ ['_']) ++ Decimal.ofNat r.index :=
    fun r => by simp [stem]
  rw [hsplit, hsplit] at h
  obtain ⟨htable, hindex⟩ := eq_of_append_eq (notMem_digits (by decide) s.index)
    (notMem_digits (by decide) t.index) (Or.inr List.getLast?_concat)
    (Or.inr List.getLast?_concat) h
  have hvalue : s.index = t.index := by
    rw [← Decimal.value_ofNat s.index, hindex, Decimal.value_ofNat]
  exact (ShardId.mk.injEq ..).mpr
    ⟨String.toList_inj.mp (List.append_cancel_right htable), hvalue⟩

theorem isPlainName_fileName (h : separator ∉ s.table.toList) (hne : extension ≠ "")
    (hword : separator ∉ extension.toList) : Path.IsPlainName (s.fileName extension) :=
  Path.isPlainName_extended s.stem_ne_nil (mt String.toList_eq_nil_iff.mp hne)
    (separator_notMem_stem h) hword

end ShardId

namespace RecordFile

variable {directory : Path} {own other : ShardId} {tree tree' : FileTree} {place : Place}
variable {path p q : Path} {point : CommitPoint} {step : Step} {left : List Step}

/-! ### Names and places -/

theorem recordPath_eq (directory : Path) (s : ShardId) :
    Layout.recordPath directory s = directory.join (s.fileName "json") := by
  have hname : s.table ++ "_" ++ toString s.index ++ ".json" = s.fileName "json" := by
    rw [← String.toList_inj, ShardId.fileName, ShardId.stem, String.toList_ofList]
    simp only [String.toList_append, Nat.toString_eq_ofList_toDigits, String.toList_ofList]
    simp [Decimal.ofNat]
  rw [Layout.recordPath, hname]

/-- **The temporary file lies beside the record.** -/
theorem temporaryPath_recordPath (directory : Path) (h : separator ∉ own.table.toList) :
    temporaryPath (Layout.recordPath directory own) =
      directory.join (own.fileName "json.tmp") := by
  rw [temporaryPath, recordPath_eq]
  exact directory.replaceExtension_join "json.tmp" own.stem_ne_nil own.stem_ne_here
    (ShardId.separator_notMem_stem h) (by decide) (by decide) (by decide)

/-- The files that are kept for a shard: its record and the one that is prepared beside it. -/
def paths (directory : Path) (s : ShardId) : List Path :=
  [Layout.recordPath directory s, temporaryPath (Layout.recordPath directory s)]

/-- The extensions of these files. -/
def extensions : List String := ["json", "json.tmp"]

theorem mem_paths_iff (h : separator ∉ own.table.toList) :
    p ∈ paths directory own ↔
      ∃ extension ∈ extensions, p = directory.join (own.fileName extension) := by
  rw [paths, temporaryPath_recordPath directory h, recordPath_eq]
  simp [extensions]

theorem isPlainName_of_mem (h : separator ∉ own.table.toList) {extension : String}
    (hmem : extension ∈ extensions) : Path.IsPlainName (own.fileName extension) := by
  have hall : ∀ e ∈ extensions, e ≠ "" ∧ separator ∉ e.toList := by decide
  exact ShardId.isPlainName_fileName h (hall _ hmem).1 (hall _ hmem).2

/-- The names of the files tell the shards. -/
theorem fileName_ne (hne : own ≠ other) {extension extension' : String}
    (hmem : extension ∈ extensions) (hmem' : extension' ∈ extensions) :
    own.fileName extension ≠ other.fileName extension' := by
  intro heq
  have htext := String.ofList_injective heq
  -- the record and the temporary file end in different characters
  have hends : ∀ e ∈ extensions, ∀ stem : List Char,
      (stem ++ '.' :: e.toList).getLast? = e.toList.getLast? := by
    intro e he stem
    have hne : e.toList ≠ [] := by
      have hall : ∀ e ∈ extensions, e.toList ≠ [] := by decide
      exact hall e he
    rw [List.getLast?_append_of_ne_nil _ (List.cons_ne_nil _ _),
      List.getLast?_cons_of_ne_nil hne]
  have hlast : extension.toList.getLast? = extension'.toList.getLast? := by
    rw [← hends _ hmem own.stem, htext, hends _ hmem']
  have hsame : extension = extension' := by
    have hall : ∀ e ∈ extensions, ∀ e' ∈ extensions,
        e.toList.getLast? = e'.toList.getLast? → e = e' := by
      decide
    exact hall _ hmem _ hmem' hlast
  rw [hsame] at htext
  exact hne (ShardId.stem_injective (List.append_cancel_right htext))

/-- A file that is kept for a shard is one step below the directory. -/
theorem exists_target (h : separator ∉ own.table.toList) (hp : p ∈ paths directory own) :
    ∃ extension ∈ extensions, ∀ tree : FileTree,
      tree.target p = tree.target directory ++ [own.fileName extension] := by
  obtain ⟨extension, hmem, rfl⟩ := (mem_paths_iff h).mp hp
  exact ⟨extension, hmem, fun _ => FileTree.target_join_plain (isPlainName_of_mem h hmem)⟩

/-- **No two shards have a file in the same place**, nor one below a file of the other. -/
theorem not_prefix_of_ne (hne : own ≠ other) (hown : separator ∉ own.table.toList)
    (hother : separator ∉ other.table.toList) (hp : p ∈ paths directory own)
    (hq : q ∈ paths directory other) (tree : FileTree) :
    ¬tree.target p <+: tree.target q := by
  obtain ⟨extension, hmem, htarget⟩ := exists_target hown hp
  obtain ⟨extension', hmem', htarget'⟩ := exists_target hother hq
  rw [htarget, htarget', List.prefix_append_right_inj]
  intro hbegins
  exact fileName_ne hne hmem hmem' (List.cons.inj (hbegins.eq_of_length rfl)).1

theorem target_ne_of_ne (hne : own ≠ other) (hown : separator ∉ own.table.toList)
    (hother : separator ∉ other.table.toList) (hp : p ∈ paths directory own)
    (hq : q ∈ paths directory other) (tree : FileTree) : tree.target p ≠ tree.target q :=
  fun heq => not_prefix_of_ne hne hown hother hp hq tree (heq ▸ List.prefix_refl _)

/-! ### Steps of others -/

/-- What a step leaves, whether it is completed or stops. -/
def Step.Ends (tree : FileTree) (step : Step) (tree' : FileTree) : Prop :=
  step.Leaves tree tree' ∨ step.perform tree = (tree', .ok ())

theorem mem_plan_iff : step ∈ plan path point ↔
    (∃ directory, path.parent? = some directory ∧ step = .prepare directory) ∨
      step = .begin (temporaryPath path) ∨ step = .fill (temporaryPath path) point.render ∨
      step = .replace (temporaryPath path) path := by
  rw [plan]
  cases path.parent? <;> simp

/-- **A step of a replacement** touches no file but the record and what is at or below the temporary
file. -/
theorem keepsFile_of_ends (hstep : step ∈ plan path point) (hrecord : place ≠ tree.target path)
    (htemporary : ¬tree.target (temporaryPath path) <+: place) (h : step.Ends tree tree') :
    tree.KeepsFile tree' place := by
  have hbeside : place ≠ tree.target (temporaryPath path) := fun heq =>
    htemporary (heq ▸ List.prefix_refl _)
  have hperform : tree.KeepsFile (step.perform tree).1 place := by
    rcases mem_plan_iff.mp hstep with ⟨directory, -, rfl⟩ | rfl | rfl | rfl <;>
      rw [Step.perform]
    · exact tree.keepsFile_createDirectories directory place
    · exact tree.keepsFile_write [] hbeside
    · exact tree.keepsFile_write point.render hbeside
    · exact FileTree.keepsFile_rename htemporary hrecord
  rcases h with hleaves | hdone
  · cases hleaves with
    | untouched => exact .refl tree place
    | directories directory k => exact tree.keepsFile_createFrom [] _ place
    | part file content k =>
        obtain ⟨directory, -, heq⟩ | heq | heq | heq := mem_plan_iff.mp hstep
        · cases heq
        · cases heq
        · cases heq
          exact tree.keepsFile_write _ hbeside
        · cases heq
    | failed hfailed => rwa [hfailed] at hperform
  · rwa [hdone] at hperform

/-- What is left of a tree when shards other than `own` store their records: each step of a
replacement is made as a whole or stops within, and those of different shards come in any order. -/
inductive StoredByOthers (directory : Path) (own : ShardId) : FileTree → FileTree → Prop where
  | refl (tree : FileTree) : StoredByOthers directory own tree tree
  | step {tree tree' tree'' : FileTree} {other : ShardId} {point : CommitPoint} {step : Step}
      (hrest : StoredByOthers directory own tree tree') (hne : other ≠ own)
      (hother : separator ∉ other.table.toList)
      (hstep : step ∈ plan (Layout.recordPath directory other) point)
      (h : step.Ends tree' tree'') : StoredByOthers directory own tree tree''

/-- **The files of a shard stay** while other shards store their records. -/
theorem StoredByOthers.keepsFile (h : StoredByOthers directory own tree tree')
    (hown : separator ∉ own.table.toList) (hq : q ∈ paths directory own) :
    tree.KeepsFile tree' (tree.target q) := by
  induction h with
  | refl => exact .refl tree _
  | @step tree' tree'' other point step _ hne hother hstep hends ih =>
      refine ih.trans ?_
      rw [← FileTree.target_of_home_eq ih.home]
      refine keepsFile_of_ends hstep (Ne.symm ?_) ?_ hends
      · exact target_ne_of_ne hne hother hown List.mem_cons_self hq tree'
      · exact not_prefix_of_ne hne hother hown
          (List.mem_cons_of_mem _ List.mem_cons_self) hq tree'

/-- One more replacement by another shard, wherever it stops. -/
theorem StoredByOthers.stopped {start : FileTree} {steps : List Step}
    (h : StoredByOthers directory own start tree) (hne : other ≠ own)
    (hother : separator ∉ other.table.toList)
    (hsteps : ∀ step ∈ steps, step ∈ plan (Layout.recordPath directory other) point)
    (hstopped : Stopped tree steps tree' left) : StoredByOthers directory own start tree' := by
  induction hstopped with
  | complete => exact h
  | within hleaves =>
      exact h.step hne hother (hsteps _ List.mem_cons_self) (Or.inl hleaves)
  | after hperform _ ih =>
      refine ih (h.step hne hother (hsteps _ List.mem_cons_self) (Or.inr hperform)) ?_
      exact fun step hstep => hsteps step (List.mem_cons_of_mem _ hstep)

theorem StoredByOthers.store {start : FileTree} (h : StoredByOthers directory own start tree)
    (hne : other ≠ own) (hother : separator ∉ other.table.toList) (point : CommitPoint) :
    StoredByOthers directory own start
      (store tree (Layout.recordPath directory other) point).1 := by
  obtain ⟨left, hstopped, -⟩ :=
    stopped_performAll tree (plan (Layout.recordPath directory other) point)
  have hstored := h.stopped hne hother (fun _ => id) hstopped
  unfold RecordFile.store
  split <;> rename_i heq <;> rwa [heq] at hstored

/-- **The records of different shards lie apart**, whatever the directory is and whatever the tables
are called, as long as there is no separator in their names:

* neither the record of a shard nor its temporary file has the path of either file of another one,
  nor does it lead to the same place;
* a shard that stores its record leaves both files of every other one as they are;
* so do all others together, in whatever order their steps come and wherever they stop. -/
theorem records_apart (directory : Path) {own other : ShardId} (hne : other ≠ own)
    (hown : separator ∉ own.table.toList) (hother : separator ∉ other.table.toList) :
    (∀ p ∈ paths directory other, ∀ q ∈ paths directory own,
      p ≠ q ∧ ∀ tree : FileTree, tree.target p ≠ tree.target q) ∧
    (∀ (tree : FileTree) (point : CommitPoint), ∀ q ∈ paths directory own,
      tree.KeepsFile (store tree (Layout.recordPath directory other) point).1 (tree.target q)) ∧
    ∀ tree tree' : FileTree, StoredByOthers directory own tree tree' →
      ∀ q ∈ paths directory own, tree.KeepsFile tree' (tree.target q) := by
  refine ⟨fun p hp q hq => ?_, fun tree point q hq => ?_, fun tree tree' h q hq => ?_⟩
  · have hplaces := target_ne_of_ne hne hother hown hp hq
    refine ⟨?_, hplaces⟩
    rintro rfl
    exact hplaces .empty rfl
  · have hstart : StoredByOthers directory own tree tree := .refl tree
    exact (hstart.store hne hother point).keepsFile hown hq
  · exact h.keepsFile hown hq

/-- A directory in which a shard has a record, and a temporary file that was left behind. -/
def cabinet : FileTree :=
  ⟨[(["c"], .directory), (["c", "t_1.json"], .file former.render),
    (["c", "t_1.json.tmp"], .file [])], []⟩

/-- A table that is called like the temporary file of another one. -/
theorem records_apart_of_like_names :
    let own : ShardId := ⟨"t", 1⟩
    let other : ShardId := ⟨"t_1.json.tmp", 1⟩
    let left := (store cabinet (Layout.recordPath ⟨"c"⟩ other) extreme).1
    other ≠ own ∧ separator ∉ own.table.toList ∧ separator ∉ other.table.toList ∧
      paths ⟨"c"⟩ own = [⟨"c/t_1.json"⟩, ⟨"c/t_1.json.tmp"⟩] ∧
      paths ⟨"c"⟩ other = [⟨"c/t_1.json.tmp_1.json"⟩, ⟨"c/t_1.json.tmp_1.json.tmp"⟩] ∧
      cabinet.KeepsFile left ["c", "t_1.json"] ∧ cabinet.KeepsFile left ["c", "t_1.json.tmp"] := by
  intro own other left
  have hpaths : paths ⟨"c"⟩ own = [⟨"c/t_1.json"⟩, ⟨"c/t_1.json.tmp"⟩] := by decide
  have hapart : other ≠ own ∧ separator ∉ own.table.toList ∧ separator ∉ other.table.toList := by
    decide
  have hrecord : cabinet.target ⟨"c/t_1.json"⟩ = ["c", "t_1.json"] := by decide
  have htemporary : cabinet.target ⟨"c/t_1.json.tmp"⟩ = ["c", "t_1.json.tmp"] := by decide
  obtain ⟨-, hkeeps, -⟩ := records_apart ⟨"c"⟩ hapart.1 hapart.2.1 hapart.2.2
  have hboth := hkeeps cabinet extreme
  rw [hpaths] at hboth
  refine ⟨hapart.1, hapart.2.1, hapart.2.2, hpaths, by decide, ?_, ?_⟩
  · rw [← hrecord]
    exact hboth ⟨"c/t_1.json"⟩ List.mem_cons_self
  · rw [← htemporary]
    exact hboth ⟨"c/t_1.json.tmp"⟩ (List.mem_cons_of_mem _ List.mem_cons_self)

end RecordFile

end ShardKeeper
