import ShardKeeper.Storage.RecordFile
import ShardKeeper.Proofs.Durability.CommitPoint
import ShardKeeper.Proofs.FileTree.Change
import ShardKeeper.Proofs.Path.Joined

/-!
# Record files that are replaced

A commit record is replaced through a temporary file next to it.  Wherever the
replacement stops, because a step fails or because the process does, the record
is the old one as long as the move has not been made, and the new one from then
on.

The temporary file is never the record file itself.  Most paths give it a name
of its own in the same directory; where they do not, it leads to a directory,
so that nothing can be written.

## Main definitions

* `RecordFile.Step.Leaves` — what a step leaves that stops before it is completed.
* `RecordFile.Stopped` — what is left where the steps stop.
* `RecordFile.LoadsAs` — a record that loads as before.

## Main results

* `RecordFile.stopped_performAll` — a replacement that fails stops at a step.
* `RecordFile.record_old_or_new` — the record wherever a replacement stops.
* `RecordFile.record_hidden_by_missing_directory` — a record whose name is too long.
-/

namespace ShardKeeper

namespace RecordFile

variable {tree tree' tree'' : FileTree} {path temporary directory : Path} {point : CommitPoint}
variable {step : Step} {steps left : List Step} {content : Bytes}

/-! ### Replacements that stop -/

/-- What a step leaves that stops before it is completed: the tree as it was, a part of the
directories, a part of the content, or what it leaves when it fails by itself. A move is made or it
is not. -/
inductive Step.Leaves (tree : FileTree) : Step → FileTree → Prop where
  | untouched (step : Step) : Leaves tree step tree
  | directories (directory : Path) (k : ℕ) :
      Leaves tree (.prepare directory)
        (tree.createFrom [] ((tree.startOf directory ++ directory.steps).take k)).1
  | part (file : Path) (content : Bytes) (k : ℕ) :
      Leaves tree (.fill file content) (tree.write file (content.take k)).1
  | failed {step : Step} {tree' : FileTree} {fault : FileTree.Fault}
      (h : step.perform tree = (tree', .error fault)) : Leaves tree step tree'

/-- What is left of a tree where a sequence of steps stops, and the steps that were not
completed. -/
inductive Stopped : FileTree → List Step → FileTree → List Step → Prop where
  | complete (tree : FileTree) : Stopped tree [] tree []
  | within {tree tree' : FileTree} {step : Step} {rest : List Step} (h : step.Leaves tree tree') :
      Stopped tree (step :: rest) tree' (step :: rest)
  | after {tree tree' tree'' : FileTree} {step : Step} {rest left : List Step}
      (h : step.perform tree = (tree', .ok ())) (hrest : Stopped tree' rest tree'' left) :
      Stopped tree (step :: rest) tree'' left

/-- Steps stop within the first of them, or after it. -/
theorem stopped_cons_iff :
    Stopped tree (step :: steps) tree' left ↔
      left = step :: steps ∧ step.Leaves tree tree' ∨
        ∃ mid, step.perform tree = (mid, .ok ()) ∧ Stopped mid steps tree' left := by
  constructor
  · intro h
    cases h with
    | within h => exact Or.inl ⟨rfl, h⟩
    | after h hrest => exact Or.inr ⟨_, h, hrest⟩
  · rintro (⟨rfl, h⟩ | ⟨mid, h, hrest⟩)
    · exact .within h
    · exact .after h hrest

/-- **A replacement that fails stops at a step**, and one that does not completes them all. -/
theorem stopped_performAll (tree : FileTree) (steps : List Step) :
    ∃ left, Stopped tree steps (performAll tree steps).1 left ∧
      (left = [] ↔ (performAll tree steps).2 = none) := by
  induction steps generalizing tree with
  | nil => exact ⟨[], .complete tree, by simp [performAll]⟩
  | cons step steps ih =>
      rw [performAll]
      split
      · rename_i tree' hperform
        obtain ⟨left, hstopped, hleft⟩ := ih tree'
        exact ⟨left, .after hperform hstopped, hleft⟩
      · rename_i tree' fault hperform
        exact ⟨step :: steps, .within (.failed hperform), by simp⟩

theorem stopped_store (h : store tree path point = (tree', .ok ())) :
    Stopped tree (plan path point) tree' [] := by
  obtain ⟨left, hstopped, hleft⟩ := stopped_performAll tree (plan path point)
  unfold store at h
  split at h
  · rename_i hperform
    obtain ⟨rfl, -⟩ := Prod.mk.inj h
    rw [hperform] at hstopped hleft
    rwa [hleft.mpr rfl] at hstopped
  · cases h

theorem stopped_store_error {fault : StorageFault}
    (h : store tree path point = (tree', .error fault)) :
    ∃ left, left ≠ [] ∧ Stopped tree (plan path point) tree' left := by
  obtain ⟨left, hstopped, hleft⟩ := stopped_performAll tree (plan path point)
  unfold store at h
  split at h
  · cases h
  · rename_i hperform
    obtain ⟨rfl, -⟩ := Prod.mk.inj h
    rw [hperform] at hstopped hleft
    exact ⟨left, fun hnil => absurd (hleft.mp hnil) (by simp), hstopped⟩

/-! ### Single steps -/

/-- The directories for a record are created on the way to it. -/
theorem prepared_of_leaves (hg : tree.Grounded) (hup : ".." ∉ directory.steps)
    (h : (Step.prepare directory).Leaves tree tree') :
    tree'.Grounded ∧ tree.Prepared tree' (tree.target directory) := by
  cases h with
  | untouched => exact ⟨hg, .refl tree _⟩
  | directories _ k => exact FileTree.createFrom_root_prepared hg hup (List.take_prefix _ _)
  | failed h => exact FileTree.prepared_of_createDirectories hg hup h

/-- Beginning the temporary file changes nothing else. -/
theorem beside_of_begin (h : (Step.begin temporary).Leaves tree tree') :
    tree.Beside tree' (tree.target temporary) := by
  cases h with
  | untouched => exact .refl tree _
  | failed h => exact FileTree.beside_of_write h

/-- Filling the temporary file changes nothing else. -/
theorem beside_of_fill (h : (Step.fill temporary content).Leaves tree tree') :
    tree.Beside tree' (tree.target temporary) := by
  cases h with
  | untouched => exact .refl tree _
  | part _ _ k => exact FileTree.beside_of_write rfl
  | failed h => exact FileTree.beside_of_write h

/-- A move that is not made changes nothing. -/
theorem eq_of_replace (h : (Step.replace temporary path).Leaves tree tree') : tree' = tree := by
  cases h with
  | untouched => rfl
  | failed h =>
      rcases tree.rename_cases temporary path with ⟨fault, herror⟩ | ⟨_, -, -, -, hmoved⟩
      · exact congrArg Prod.fst (h.symm.trans herror)
      · cases h.symm.trans hmoved

/-! ### The temporary file -/

/-- The record lies in the directory of its path. -/
theorem exists_directory {front : List Char} {name : String} (hends : path.EndsIn front name)
    (hup : ".." ∉ path.steps) :
    ∃ directory, path.parent? = some directory ∧ ".." ∉ directory.steps ∧
      ∀ tree : FileTree, tree.target path = tree.target directory ++ [name] := by
  obtain ⟨directory, hparent, hnames, habsolute⟩ := hends.exists_parent
  have hdirectory : ".." ∉ directory.steps := by
    rw [← Path.up_mem_names, hnames]
    exact hends.notMem_front hup
  refine ⟨directory, hparent, hdirectory, fun tree => ?_⟩
  rw [FileTree.target_of_names_eq hdirectory habsolute, FileTree.target_eq hup, hnames,
    hends.names_eq, List.append_assoc]

/-- **The temporary file does not lie on the way to the record**, or its path leads up. -/
theorem temporaryPath_apart {front : List Char} {name : String} (hends : path.EndsIn front name)
    (hup : ".." ∉ path.steps) (tree : FileTree) :
    (∃ steps, (temporaryPath path).steps = steps ++ [".."]) ∨
      ¬tree.target (temporaryPath path) <+: tree.target path := by
  have hdot : '.' ∈ "json.tmp".toList := by decide
  have hword : Path.separator ∉ "json.tmp".toList := by decide
  rcases hends.replaceExtension_cases hdot hword with hleads | ⟨other, hplain, hne, htemporary⟩
  · left
    rw [temporaryPath, hleads, hends.steps_sibling (by decide) (by decide)]
    exact ⟨_, rfl⟩
  · right
    have hsteps := hends.steps_sibling hplain.toList_ne_nil hplain.isWord
    have habsolute := hends.isAbsolute_sibling hplain.toList_ne_nil hplain.isWord
    rw [← htemporary, String.ofList_toList] at hsteps
    rw [← htemporary] at habsolute
    have hfront := hends.notMem_front hup
    have htop : ".." ∉ (path.replaceExtension "json.tmp").steps := by
      rw [hsteps, List.mem_append, List.mem_singleton, not_or, ← Path.up_mem_names]
      exact ⟨hfront, Ne.symm hplain.ne_up⟩
    have hnames : (path.replaceExtension "json.tmp").names =
        (⟨String.ofList front⟩ : Path).names ++ [other] := by
      rw [Path.names, hsteps, List.filter_append]
      simp [hplain.ne_here, Path.names]
    rw [temporaryPath, FileTree.target_of_names_eq htop habsolute, FileTree.target_eq hup, hnames,
      hends.names_eq, List.prefix_append_right_inj, List.prefix_append_right_inj]
    intro hbegins
    exact hne (List.cons.inj (hbegins.eq_of_length rfl)).1

/-- A temporary file with a place of its own: the record reads as before until it is replaced, and
then it is the content of the temporary file. -/
theorem read_of_stopped (hup : ".." ∉ path.steps)
    (hapart : ¬tree.target temporary <+: tree.target path)
    (h : Stopped tree [.begin temporary, .fill temporary content, .replace temporary path] tree'
      left) :
    left ≠ [] ∧ tree'.read path = tree.read path ∨ left = [] ∧ tree'.read path = .ok content := by
  rcases stopped_cons_iff.mp h with ⟨rfl, hbegin⟩ | ⟨begun, hbegin, h⟩
  · exact Or.inl ⟨List.cons_ne_nil _ _, (beside_of_begin hbegin).read_eq hup hapart⟩
  have hbegun : tree.Beside begun (tree.target temporary) := FileTree.beside_of_write hbegin
  have hplace := FileTree.target_of_home_eq hbegun.home temporary
  rcases stopped_cons_iff.mp h with ⟨rfl, hfill⟩ | ⟨filled, hfill, h⟩
  · have hfilled := beside_of_fill hfill
    rw [hplace] at hfilled
    exact Or.inl ⟨List.cons_ne_nil _ _, (hbegun.trans hfilled).read_eq hup hapart⟩
  have hfilled : begun.Beside filled (begun.target temporary) := FileTree.beside_of_write hfill
  rw [hplace] at hfilled
  have hhome := (hbegun.trans hfilled).home
  rcases stopped_cons_iff.mp h with ⟨rfl, hmove⟩ | ⟨moved, hmove, h⟩
  · rw [eq_of_replace hmove]
    exact Or.inl ⟨List.cons_ne_nil _ _, (hbegun.trans hfilled).read_eq hup hapart⟩
  · cases h with
    | complete =>
        have hcontent := FileTree.occupant?_of_write hfill
        refine Or.inr ⟨rfl, FileTree.read_of_rename hup hcontent ?_ hmove⟩
        rwa [FileTree.target_of_home_eq hhome, FileTree.target_of_home_eq hhome]

/-- Where the temporary path leads to a directory, nothing comes of the replacement. -/
theorem eq_of_stopped_at_directory
    (hdirectory : ∀ place, tree.locate temporary = .ok place →
      tree.occupant? place = some .directory)
    (h : Stopped tree (.begin temporary :: steps) tree' left) : left ≠ [] ∧ tree' = tree := by
  obtain ⟨fault, hwrite⟩ := FileTree.write_of_directory hdirectory []
  rcases stopped_cons_iff.mp h with ⟨rfl, hbegin⟩ | ⟨begun, hbegin, -⟩
  · refine ⟨List.cons_ne_nil _ _, ?_⟩
    cases hbegin with
    | untouched => rfl
    | failed hfail => exact congrArg Prod.fst (hfail.symm.trans hwrite)
  · cases hbegin.symm.trans hwrite

/-! ### The record -/

/-- A record loads as before, unless its path has a name that the file system does not take: where
this was hidden because the directory of the record was missing, it comes out once a directory is
there. -/
def LoadsAs (tree tree' : FileTree) (path : Path) : Prop :=
  load tree' path = load tree path ∨
    load tree path = .ok .unknown ∧ load tree' path = .error (.inaccessible path) ∧
      tree.occupant? (tree.target path).dropLast = none ∧
      ∃ step ∈ path.steps, FileTree.nameLimit < step.utf8ByteSize

theorem loadsAs_of_read (h : tree'.read path = tree.read path) : LoadsAs tree tree' path := by
  left
  rw [load, load, h]

/-- A record whose directories were created. -/
theorem loadsAs_of_prepared (hg : tree.Grounded) (hup : ".." ∉ path.steps) {up : Path.Place}
    (hprepared : tree.Prepared tree' up) (hbeyond : ¬tree.target path <+: up) :
    LoadsAs tree tree' path := by
  rcases hprepared.read_cases hg hup hbeyond with hread | ⟨hbefore, hafter, hlong⟩
  · exact loadsAs_of_read hread
  · refine Or.inr ⟨?_, ?_, hlong⟩
    · rw [load, hbefore]
    · rw [load, hafter]

theorem LoadsAs.of_read_eq (h : LoadsAs tree tree' path)
    (hread : tree''.read path = tree'.read path) : LoadsAs tree tree'' path := by
  have hload : load tree'' path = load tree' path := by
    rw [load, load, hread]
  rwa [LoadsAs, hload]

theorem load_of_read_render (hpoint : point.Fits) (h : tree.read path = .ok point.render) :
    load tree path = .ok point := by
  rw [load, h]
  dsimp only
  rw [CommitPoint.ofBytes?_render hpoint]

/-- The record wherever its replacement stops, for a path that ends in a name. -/
theorem record_of_endsIn {front : List Char} {name : String} (hends : path.EndsIn front name)
    (hg : tree.Grounded) (hup : ".." ∉ path.steps) (hpoint : point.Fits)
    (h : Stopped tree (plan path point) tree' left) :
    left ≠ [] ∧ LoadsAs tree tree' path ∨ left = [] ∧ load tree' path = .ok point := by
  obtain ⟨directory, hparent, hdirectory, htarget⟩ := exists_directory hends hup
  have hbeyond : ¬tree.target path <+: tree.target directory := by
    intro hbegins
    have hlength := hbegins.length_le
    rw [htarget, List.length_append] at hlength
    exact absurd hlength (by simp)
  rw [plan, hparent, List.singleton_append] at h
  rcases stopped_cons_iff.mp h with ⟨rfl, hprepare⟩ | ⟨ready, hprepare, h⟩
  · obtain ⟨-, hprepared⟩ := prepared_of_leaves hg hdirectory hprepare
    exact Or.inl ⟨List.cons_ne_nil _ _, loadsAs_of_prepared hg hup hprepared hbeyond⟩
  obtain ⟨hg', hprepared⟩ := FileTree.prepared_of_createDirectories hg hdirectory hprepare
  have hready := loadsAs_of_prepared hg hup hprepared hbeyond
  rcases temporaryPath_apart hends hup ready with ⟨steps, hsteps⟩ | hapart
  · obtain ⟨hleft, rfl⟩ := eq_of_stopped_at_directory
      (fun place hplace => hg'.directory_of_up hsteps hplace) h
    exact Or.inl ⟨hleft, hready⟩
  · rcases read_of_stopped hup hapart h with ⟨hleft, hread⟩ | ⟨hleft, hread⟩
    · exact Or.inl ⟨hleft, hready.of_read_eq hread⟩
    · exact Or.inr ⟨hleft, load_of_read_render hpoint hread⟩

/-- The record wherever its replacement stops. -/
theorem record_of_stopped (hg : tree.Grounded) (hup : ".." ∉ path.steps) (hpoint : point.Fits)
    (h : Stopped tree (plan path point) tree' left) :
    left ≠ [] ∧ LoadsAs tree tree' path ∨ left = [] ∧ load tree' path = .ok point := by
  rcases path.exists_endsIn (mt Path.up_mem_names.mp hup) with
    ⟨front, name, hends⟩ | ⟨hfile, hparent, hnames⟩
  · exact record_of_endsIn hends hg hup hpoint h
  · -- the path leads to the directory that it starts from, and so does the temporary one
    have htemporary : temporaryPath path = path := by
      rw [temporaryPath, Path.replaceExtension, hfile]
    rw [plan, hparent, List.nil_append, htemporary] at h
    obtain ⟨hleft, rfl⟩ := eq_of_stopped_at_directory
      (fun place hplace => hg.directory_of_names_nil hup hnames hplace) h
    exact Or.inl ⟨hleft, Or.inl rfl⟩

/-- **The record is the old one or the new one**, wherever its replacement stops; it is the new one
once all steps were completed, which is what a replacement without an error says. -/
theorem record_old_or_new (hg : tree.Grounded) (hup : ".." ∉ path.steps) (hpoint : point.Fits) :
    (∀ tree' left, Stopped tree (plan path point) tree' left →
      if left = [] then load tree' path = .ok point else LoadsAs tree tree' path) ∧
    (∀ tree', store tree path point = (tree', .ok ()) → load tree' path = .ok point) ∧
    (∀ tree' fault, store tree path point = (tree', .error fault) → LoadsAs tree tree' path) := by
  have hall : ∀ tree' left, Stopped tree (plan path point) tree' left →
      if left = [] then load tree' path = .ok point else LoadsAs tree tree' path := by
    intro tree' left h
    rcases record_of_stopped hg hup hpoint h with ⟨hleft, hload⟩ | ⟨hleft, hload⟩
    · rwa [if_neg hleft]
    · rwa [if_pos hleft]
  refine ⟨hall, fun tree' h => ?_, fun tree' fault h => ?_⟩
  · have hload := hall tree' [] (stopped_store h)
    rwa [if_pos rfl] at hload
  · obtain ⟨left, hleft, hstopped⟩ := stopped_store_error h
    have hload := hall tree' left hstopped
    rwa [if_neg hleft] at hload

/-- A record that is already there. -/
def former : CommitPoint := ⟨5, 1, 3⟩

/-- A record at the ends of 64 bits. -/
def extreme : CommitPoint := ⟨Decimal.minInt64, Decimal.maxInt64, Decimal.minInt64⟩

/-- A directory with the record file `x` in it. -/
def shelf : FileTree := ⟨[(["d"], .directory), (["d", "x"], .file former.render)], []⟩

/-- The case of a record that is replaced by one at the ends of 64 bits. -/
theorem extreme_record_old_or_new :
    (store shelf ⟨"d/x"⟩ extreme).2 = .ok () ∧
      load (store shelf ⟨"d/x"⟩ extreme).1 ⟨"d/x"⟩ = .ok extreme ∧
      ∀ tree' left, Stopped shelf (plan ⟨"d/x"⟩ extreme) tree' left →
        load tree' ⟨"d/x"⟩ = .ok (if left = [] then extreme else former) := by
  have hg : shelf.Grounded := .of_entries (by decide) (by decide) (by decide)
  have hread : shelf.read ⟨"d/x"⟩ = .ok former.render := by
    decide
  have hformer : load shelf ⟨"d/x"⟩ = .ok former := load_of_read_render (by decide) hread
  have hstore : (store shelf ⟨"d/x"⟩ extreme).2 = .ok () := by
    decide
  obtain ⟨hstopped, hstored, -⟩ :=
    @record_old_or_new shelf ⟨"d/x"⟩ extreme hg (by decide) (by decide)
  refine ⟨hstore, hstored _ (Prod.ext rfl hstore), fun tree' left h => ?_⟩
  have hload := hstopped tree' left h
  split at hload
  · rename_i hleft
    rw [if_pos hleft]
    exact hload
  · rename_i hleft
    rw [if_neg hleft]
    rcases hload with hsame | ⟨hnone, -⟩
    · rw [hsame, hformer]
    · rw [hformer] at hnone
      cases hnone

/-! ### A name that the file system does not take -/

/-- The characters of a name of 256 bytes, one more than there may be. -/
def overlong : List Char := List.replicate 256 'a'

/-- A directory of that name in another one. -/
def hiddenDirectory : Path := ⟨String.ofList ('d' :: '/' :: overlong)⟩

/-- The path of a record in it. -/
def hiddenRecord : Path := ⟨String.ofList ('d' :: '/' :: overlong ++ ['/', 'x'])⟩

theorem checkPath_of_text {text : List Char} (hnul : text.contains '\x00' = false)
    (hsize : tree.home.width + 1 + (String.ofList text).utf8ByteSize ≤ FileTree.pathLimit) :
    tree.checkPath ⟨String.ofList text⟩ = .ok () := by
  have hwidth : tree.width ⟨String.ofList text⟩ ≤ FileTree.pathLimit := by
    show (if _ then 0 else tree.home.width + 1) + (String.ofList text).utf8ByteSize ≤ _
    split <;> omega
  rw [FileTree.checkPath, String.toList_ofList, hnul, if_neg Bool.false_ne_true,
    if_neg (Nat.not_lt.mpr hwidth)]

theorem utf8ByteSize_replicate (n : Nat) :
    (String.ofList (List.replicate n 'a')).utf8ByteSize = n := by
  induction n with
  | zero => rfl
  | succ n ih =>
      rw [List.replicate_succ, String.ofList_cons, String.utf8ByteSize_append, ih,
        String.utf8ByteSize_singleton]
      exact Nat.add_comm 1 n

theorem utf8ByteSize_overlong : (String.ofList overlong).utf8ByteSize = 256 :=
  utf8ByteSize_replicate 256

theorem nameLimit_lt_overlong : FileTree.nameLimit < (String.ofList overlong).utf8ByteSize := by
  rw [utf8ByteSize_overlong]
  decide

theorem overlong_ne {name : String} (h : name.utf8ByteSize ≠ 256) : String.ofList overlong ≠ name :=
  fun heq => h (heq ▸ utf8ByteSize_overlong)

theorem notMem_overlong {c : Char} (h : c ≠ 'a') : c ∉ overlong :=
  fun hc => h (List.eq_of_mem_replicate hc)

theorem words_hiddenDirectory : Path.words ('d' :: '/' :: overlong) = [['d'], overlong] := by
  show Path.words (['d'] ++ Path.separator :: overlong) = _
  rw [Path.words_append_separator, Path.words_of_notMem (by decide) (by decide),
    Path.words_of_notMem (by decide) (notMem_overlong (by decide))]
  rfl

theorem steps_hiddenDirectory : hiddenDirectory.steps = ["d", String.ofList overlong] := by
  rw [Path.steps_eq, hiddenDirectory, String.toList_ofList, words_hiddenDirectory]
  rfl

theorem steps_hiddenRecord : hiddenRecord.steps = ["d", String.ofList overlong, "x"] := by
  have hwords : Path.words ('d' :: '/' :: overlong ++ ['/', 'x']) = [['d'], overlong, ['x']] := by
    show Path.words ('d' :: '/' :: overlong ++ Path.separator :: ['x']) = _
    rw [Path.words_append_separator, words_hiddenDirectory,
      Path.words_of_notMem (by decide) (by decide)]
    rfl
  rw [Path.steps_eq, hiddenRecord, String.toList_ofList, hwords]
  rfl

theorem checkPath_hiddenDirectory : FileTree.empty.checkPath hiddenDirectory = .ok () := by
  refine checkPath_of_text (by decide) ?_
  rw [String.ofList_cons, String.ofList_cons, String.utf8ByteSize_append,
    String.utf8ByteSize_append, utf8ByteSize_overlong]
  decide

theorem checkPath_hiddenRecord : FileTree.empty.checkPath hiddenRecord = .ok () := by
  refine checkPath_of_text (by decide) ?_
  rw [String.ofList_append, String.ofList_cons, String.ofList_cons, String.utf8ByteSize_append,
    String.utf8ByteSize_append, String.utf8ByteSize_append, utf8ByteSize_overlong]
  decide

/-- How the record is looked up. -/
theorem locate_hiddenRecord (tree : FileTree) (hhome : tree.home = FileTree.empty.home) :
    tree.locate hiddenRecord = tree.locateFrom [] ["d", String.ofList overlong, "x"] := by
  have hopen : hiddenRecord.isOpen = false := by
    rw [Path.isOpen, hiddenRecord, String.toList_ofList]
    decide
  have hstart : tree.startOf hiddenRecord = [] := by
    rw [FileTree.startOf, hhome]
    exact ite_self _
  rw [FileTree.locate_eq, FileTree.checkPath_of_home_eq hhome, checkPath_hiddenRecord, hstart,
    FileTree.lookupSteps, steps_hiddenRecord, hopen]
  rfl

/-- The first of the directories is created, and the second is not. -/
theorem createDirectories_hidden :
    FileTree.empty.createDirectories hiddenDirectory =
      (FileTree.empty.set ["d"] .directory, .error .nameTooLong) := by
  have hstart : FileTree.empty.startOf hiddenDirectory = [] := by
    rw [FileTree.startOf]
    exact ite_self _
  have hlast : hiddenDirectory.steps.getLast? ≠ some "." := by
    rw [steps_hiddenDirectory]
    exact fun heq => overlong_ne (by decide) (Option.some.inj heq)
  have hfree : FileTree.empty.occupant? ["d"] = none := rfl
  rw [FileTree.createDirectories_of_name checkPath_hiddenDirectory hlast, steps_hiddenDirectory,
    hstart, List.nil_append, FileTree.createFrom, if_neg (by decide), if_neg (by decide),
    if_neg (by decide), List.nil_append]
  dsimp only
  rw [hfree]
  dsimp only
  rw [FileTree.createFrom, if_neg (overlong_ne (by decide)), if_neg (overlong_ne (by decide)),
    if_pos nameLimit_lt_overlong]

theorem store_of_unprepared (point : CommitPoint) {fault : FileTree.Fault}
    (hparent : path.parent? = some directory)
    (h : tree.createDirectories directory = (tree', .error fault)) :
    store tree path point = (tree', .error (.inaccessible directory)) := by
  rw [store, plan, hparent, List.singleton_append, performAll, Step.perform, h]
  rfl

/-- **A name that is too long is hidden by a directory that is missing.**  Before the record is
stored there is none, and afterwards it cannot be read. -/
theorem record_hidden_by_missing_directory :
    FileTree.empty.Grounded ∧ ".." ∉ hiddenRecord.steps ∧ (⟨1, 2, 3⟩ : CommitPoint).Fits ∧
      store FileTree.empty hiddenRecord ⟨1, 2, 3⟩ =
        (FileTree.empty.set ["d"] .directory, .error (.inaccessible hiddenDirectory)) ∧
      load FileTree.empty hiddenRecord = .ok .unknown ∧
      load (FileTree.empty.set ["d"] .directory) hiddenRecord =
        .error (.inaccessible hiddenRecord) := by
  have hsplit : Path.splitLast ('d' :: '/' :: overlong ++ ['/', 'x']) =
      ('d' :: '/' :: overlong ++ ['/'], ['x']) := by
    rw [List.append_cons]
    exact Path.splitLast_of_solid (.inr List.getLast?_concat) (by decide)
      (Path.dropIdleEnd_concat (by decide) (by decide) _)
  have htrimmed : Path.dropIdleEnd ('d' :: '/' :: overlong ++ ['/']) = 'd' :: '/' :: overlong := by
    have hword : overlong = List.replicate 255 'a' ++ ['a'] := List.replicate_succ'
    refine (Path.dropIdleEnd_concat_separator ('d' :: '/' :: overlong)).trans ?_
    rw [hword]
    exact Path.dropIdleEnd_concat (by decide) (by decide) ('d' :: '/' :: List.replicate 255 'a')
  have hparent : hiddenRecord.parent? = some hiddenDirectory := by
    rw [hiddenRecord, Path.parent?, String.toList_ofList, hsplit]
    dsimp only
    rw [htrimmed]
    rfl
  have hbefore : FileTree.empty.locate hiddenRecord = .error .notFound := by
    rw [locate_hiddenRecord FileTree.empty rfl]
    decide
  have hafter : (FileTree.empty.set ["d"] .directory).locate hiddenRecord =
      .error .nameTooLong := by
    have htop : (FileTree.empty.set ["d"] .directory).occupant? [] = some .directory := rfl
    have hmade : (FileTree.empty.set ["d"] .directory).occupant? ["d"] = some .directory := rfl
    rw [locate_hiddenRecord (FileTree.empty.set ["d"] .directory) rfl, FileTree.locateFrom, htop]
    dsimp only
    rw [if_neg (by decide), if_neg (by decide), if_neg (by decide), List.nil_append,
      FileTree.locateFrom, hmade]
    dsimp only
    rw [if_neg (overlong_ne (by decide)), if_neg (overlong_ne (by decide)),
      if_pos nameLimit_lt_overlong]
  have hstore := store_of_unprepared ⟨1, 2, 3⟩ hparent createDirectories_hidden
  refine ⟨.of_entries (by decide) (by decide) (by decide), ?_, by decide, hstore, ?_, ?_⟩
  · rw [steps_hiddenRecord]
    have hname : ".." ≠ String.ofList overlong := (overlong_ne (by decide)).symm
    simp [hname]
  · rw [load, FileTree.read_of_error hbefore]
  · rw [load, FileTree.read_of_error hafter]

end RecordFile

end ShardKeeper
