import ShardKeeper.Proofs.FileTree.Resolve
import ShardKeeper.Proofs.Text.Decimal
import ShardKeeper.Reclaim.Key

/-!
# What a removal reaches

Before data is removed the catalog has to show that the engine has let go of it.
That condition names a table and a partition, while the removal follows a path.
For tables with plain names the two agree: nothing that the engine serves lies
in or below the directory that is removed.  A name with other steps in it is
taken as it comes, and its path may lead anywhere.

## Main results

* `partition_apart_of_served` — what is served is apart from what is removed.
* `partition_removed_with_nameless_table` — a served partition that goes with a table of no name.
-/

namespace ShardKeeper

open ShardKeeper.Path (Place IsPlainName)

/-! ### Names of directories -/

namespace HashSlice

theorem separator_notMem_boundsText (s : HashSlice) : Path.separator ∉ s.boundsText := by
  intro hmem
  rcases List.mem_append.mp hmem with hlo | hrest
  · exact absurd (Decimal.isDigit_of_mem_ofNat hlo) (by decide)
  · rcases List.mem_cons.mp hrest with heq | hhi
    · exact absurd heq (by decide)
    · exact absurd (Decimal.isDigit_of_mem_ofNat hhi) (by decide)

theorem toList_directoryName (s : HashSlice) :
    s.directoryName.toList = "partition_".toList ++ s.boundsText := String.toList_ofList

theorem isPlainName_directoryName (s : HashSlice) : IsPlainName s.directoryName := by
  have hfirst : s.directoryName.toList.head? = some 'p' := by
    rw [toList_directoryName]
    rfl
  refine ⟨?_, ?_, ?_, ?_⟩
  · intro heq
    rw [heq] at hfirst
    exact absurd hfirst (by decide)
  · intro heq
    rw [heq] at hfirst
    exact absurd hfirst (by decide)
  · intro heq
    rw [heq] at hfirst
    exact absurd hfirst (by decide)
  · rw [toList_directoryName, List.mem_append, not_or]
    exact ⟨by decide, s.separator_notMem_boundsText⟩

/-- Directories of different partitions have different names. -/
theorem partitionId_eq_of_directoryName_eq {s s' : HashSlice}
    (h : s.directoryName = s'.directoryName) : s.partitionId = s'.partitionId := by
  have htext := congrArg String.toList h
  rw [toList_directoryName, toList_directoryName] at htext
  rw [partitionId, partitionId, List.append_cancel_left htext]

end HashSlice

theorem isPlainName_generationName : IsPlainName Layout.generationName := by decide

/-! ### Where the data is -/

namespace ReclaimKey

/-- The table of a key. -/
def tableName : ReclaimKey → String
  | .table name => name
  | .shard name _ => name

/-- The names from the root down to the directory of a key. -/
def directories : ReclaimKey → List String
  | .table name => [name]
  | .shard name slice => [name, Layout.generationName, slice.directoryName]

theorem length_directories_le (key : ReclaimKey) : key.directories.length ≤ 3 := by
  cases key <;> simp [directories]

end ReclaimKey

variable {key : ReclaimKey} {catalog : Option Catalog} {table : String}
variable {slice : HashSlice}

theorem target_partitionDirectory (tree : FileTree) (layout : Layout) (h : IsPlainName table)
    (slice : HashSlice) :
    tree.target (layout.partitionDirectory table slice) =
      tree.target layout.root ++ [table, Layout.generationName, slice.directoryName] := by
  rw [Layout.partitionDirectory, FileTree.target_join_plain slice.isPlainName_directoryName,
    FileTree.target_join_plain isPlainName_generationName, Layout.tableDirectory,
    FileTree.target_join_plain h]
  simp

/-- With a plain name the directory of a key is below the root. -/
theorem ReclaimKey.target_path (tree : FileTree) (layout : Layout)
    (h : IsPlainName key.tableName) :
    tree.target (key.path layout) = tree.target layout.root ++ key.directories := by
  cases key with
  | table name => exact FileTree.target_join_plain h
  | shard name slice => exact target_partitionDirectory tree layout h slice

/-! ### Served and removed -/

theorem CatalogCondition.hasTable_of_served {c : Catalog} {table partition : String}
    (h : served c table partition = true) : c.hasTable table = true := by
  unfold served at h
  cases hlatest : c.latest? table with
  | none =>
      rw [hlatest] at h
      cases h
  | some g =>
      obtain ⟨generations, hlookup, -⟩ := Option.bind_eq_some_iff.mp hlatest
      obtain ⟨before, after, htables, -⟩ := List.lookup_eq_some_iff.mp hlookup
      refine List.any_eq_true.mpr ⟨(table, generations), ?_, beq_self_eq_true table⟩
      rw [htables]
      exact List.mem_append_right _ List.mem_cons_self

/-- What the engine has let go of is not on the way to what it serves. -/
theorem directories_not_prefix (hreleased : key.condition.holds catalog = true)
    (hserved : (CatalogCondition.presence table slice.partitionId).holds catalog = true) :
    ¬key.directories <+: [table, Layout.generationName, slice.directoryName] := by
  obtain ⟨c, rfl⟩ : ∃ c, catalog = some c := by
    cases catalog with
    | none => cases hserved
    | some c => exact ⟨c, rfl⟩
  replace hserved : CatalogCondition.served c table slice.partitionId = true := hserved
  intro hprefix
  cases key with
  | table name =>
      obtain ⟨rfl, -⟩ := List.cons_prefix_cons.mp hprefix
      have hunnamed : (!c.hasTable name) = true := hreleased
      rw [CatalogCondition.hasTable_of_served hserved] at hunnamed
      cases hunnamed
  | shard name slice' =>
      -- the names are as many, so the partitions are the same
      have heq := hprefix.eq_of_length rfl
      obtain rfl : name = table := (List.cons.inj heq).1
      have hpartition : slice'.partitionId = slice.partitionId :=
        HashSlice.partitionId_eq_of_directoryName_eq (by simpa using (List.cons.inj heq).2)
      have hunserved : (!CatalogCondition.served c name slice'.partitionId) = true := hreleased
      rw [hpartition, hserved] at hunserved
      cases hunserved

/-- **What is served is apart from what is removed.**  Whenever the catalog shows that the engine
has let go of a key and that it serves a partition, both of tables with plain names, and wherever
the root of its data is,

* the directory of the partition is neither the directory of the key nor inside it;
* the removal of the key leaves everything in that partition, and on the way to it, as it was. -/
theorem partition_apart_of_served (layout : Layout) (key : ReclaimKey) (catalog : Option Catalog)
    (table : String) (slice : HashSlice) (tree : FileTree) (hkey : IsPlainName key.tableName)
    (htable : IsPlainName table) (hreleased : key.condition.holds catalog = true)
    (hserved : (CatalogCondition.presence table slice.partitionId).holds catalog = true) :
    (tree.target (layout.partitionDirectory table slice)).within
      (tree.target (key.path layout)) = false ∧
    (∀ inner outer, tree.locate (layout.partitionDirectory table slice) = .ok inner →
      tree.locate (key.path layout) = .ok outer → inner.within outer = false) ∧
    ∀ place : Place,
      place.within (tree.target (layout.partitionDirectory table slice)) = true ∨
        (tree.target (layout.partitionDirectory table slice)).within place = true →
      (tree.reclaim (key.path layout)).1.occupant? place = tree.occupant? place := by
  have hnot := directories_not_prefix hreleased hserved
  have hpartition := target_partitionDirectory tree layout htable slice
  have hpath := key.target_path tree layout hkey
  have happart : (tree.target (layout.partitionDirectory table slice)).within
      (tree.target (key.path layout)) = false := by
    rw [Bool.eq_false_iff, ne_eq, FileTree.within_iff, hpartition, hpath,
      List.prefix_append_right_inj]
    exact hnot
  refine ⟨happart, ?_, ?_⟩
  · intro inner outer hinner houter
    rw [FileTree.eq_target_of_locate hinner, FileTree.eq_target_of_locate houter]
    exact happart
  · intro place hplace
    refine tree.occupant?_reclaim _ ?_
    rw [Bool.eq_false_iff, ne_eq, FileTree.within_iff]
    intro hreached
    refine Bool.eq_false_iff.mp happart (FileTree.within_iff.mpr ?_)
    rcases hplace with hinside | habove
    · -- both directories are on the way to the place, and that of the key is no deeper
      refine List.prefix_of_prefix_length_le hreached (FileTree.within_iff.mp hinside) ?_
      have hlength := key.length_directories_le
      rw [hpartition, hpath]
      simpa using hlength
    · exact hreached.trans (FileTree.within_iff.mp habove)

/-- A table that the engine has let go of is removed, and one that it serves beside it is not. -/
theorem partition_apart_of_served_beside :
    let layout : Layout := ⟨⟨"runtime"⟩⟩
    let key : ReclaimKey := .table "users"
    let slice : HashSlice := ⟨0, 65535⟩
    let catalog : Catalog := ⟨[("orders", [(0, ⟨["0_65535"]⟩)])]⟩
    let partition : Place := ["runtime", "orders", "generation_0", "partition_0_65535"]
    let tree : FileTree :=
      ⟨[(["runtime"], .directory), (["runtime", "users"], .directory),
        (["runtime", "orders"], .directory), (partition.dropLast, .directory),
        (partition, .directory)], []⟩
    key.condition.holds (some catalog) = true ∧
      (CatalogCondition.presence "orders" slice.partitionId).holds (some catalog) = true ∧
      (tree.reclaim (key.path layout)).1.occupant? ["runtime", "users"] = none ∧
      (tree.reclaim (key.path layout)).1.occupant? partition = some .directory := by
  intro layout key slice catalog partition tree
  have hplain : IsPlainName "orders" := by decide
  have hreleased : key.condition.holds (some catalog) = true := by decide
  have hserved : (CatalogCondition.presence "orders" slice.partitionId).holds (some catalog) =
      true := by decide
  obtain ⟨-, -, hkept⟩ := partition_apart_of_served layout key (some catalog) "orders" slice tree
    (by decide) hplain hreleased hserved
  have htarget := target_partitionDirectory tree layout hplain slice
  refine ⟨hreleased, hserved, by decide, ?_⟩
  rw [hkept partition (Or.inl ?_)]
  · decide
  · rw [htarget]
    decide

/-- A partition that the engine serves goes with the table of no name, which the engine has let go
of: the path of that table is the root of all data. -/
theorem partition_removed_with_nameless_table :
    let layout : Layout := ⟨⟨"runtime"⟩⟩
    let key : ReclaimKey := .table ""
    let slice : HashSlice := ⟨0, 65535⟩
    let catalog : Catalog := ⟨[("orders", [(0, ⟨["0_65535"]⟩)])]⟩
    let partition : Place := ["runtime", "orders", "generation_0", "partition_0_65535"]
    let tree : FileTree :=
      ⟨[(["runtime"], .directory), (["runtime", "orders"], .directory),
        (partition.dropLast, .directory), (partition, .directory)], []⟩
    key.condition.holds (some catalog) = true ∧
      (CatalogCondition.presence "orders" slice.partitionId).holds (some catalog) = true ∧
      tree.locate (layout.partitionDirectory "orders" slice) = .ok partition ∧
      tree.locate (key.path layout) = .ok ["runtime"] ∧ partition.within ["runtime"] = true ∧
      (tree.reclaim (key.path layout)).1.occupant? partition = none := by
  decide

end ShardKeeper
