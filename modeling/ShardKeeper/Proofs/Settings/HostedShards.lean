import ShardKeeper.Proofs.HashSpace
import ShardKeeper.Settings.Reading

/-!
# The hosted shards in accepted settings

Settings are accepted when no check finds a defect in them.  Each hosted shard is
then a shard of a table of as many shards as its entry says, and no shard is listed
twice.  Entries are compared by table and index only: two entries of one table may
count its shards differently, and then their slices may meet.

## Main results

* `Settings.checks_of_ofText` — accepted settings passed every check.
* `Settings.shardsDefect?_eq_none_iff` — what the check of the hosted shards lets through.
* `Settings.hosted_slices_apart_iff` — when two hosted shards of a table have no hash id in common.
* `Settings.overlapping_shards_accepted` — two that have, in accepted settings.
-/

namespace ShardKeeper.Settings

variable {text : List Char} {s : Settings}

/-! ### Checks -/

/-- Accepted settings passed every check. -/
theorem checks_of_ofText (h : ofText text = .ok s) : ∀ c ∈ s.checks, c = none := by
  unfold ofText at h
  split at h
  · cases h
  · split at h
    · cases h
    · rename_i hdefect
      obtain rfl := Except.ok.inj h
      exact List.findSome?_eq_none_iff.mp hdefect

/-- **What the check of the hosted shards lets through**: shards that exist in a table of the given
number of shards, none of them listed twice. -/
theorem shardsDefect?_eq_none_iff {seen : List ShardId} {shards : List Shard} :
    shardsDefect? seen shards = none ↔
      (∀ a ∈ shards, (HashSlice.ofShard? a.count a.index).isSome = true) ∧
        (shards.map Shard.id).Nodup ∧ ∀ a ∈ shards, a.id ∉ seen := by
  induction shards generalizing seen with
  | nil => simp [shardsDefect?]
  | cons a rest ih =>
      rw [shardsDefect?]
      cases hslice : HashSlice.ofShard? a.count a.index with
      | none => simp [hslice]
      | some slice =>
          by_cases hseen : a.id ∈ seen
          · simp [hseen]
          · -- those after `a` are compared with it too
            rw [if_neg (by simp), if_neg (by simpa using hseen), ih, List.forall_mem_cons,
              List.forall_mem_cons, List.map_cons, List.nodup_cons, hslice]
            simp only [Option.isSome_some, true_and, List.mem_cons, List.mem_map, not_or]
            constructor
            · rintro ⟨hexist, hnodup, hfresh⟩
              refine ⟨hexist, ⟨?_, hnodup⟩, hseen, fun b hb => (hfresh b hb).2⟩
              rintro ⟨b, hb, hid⟩
              exact (hfresh b hb).1 hid
            · rintro ⟨hexist, ⟨hnew, hnodup⟩, -, hfresh⟩
              exact ⟨hexist, hnodup, fun b hb => ⟨fun hid => hnew ⟨b, hb, hid⟩, hfresh b hb⟩⟩

/-- The hosted shards of accepted settings passed their check. -/
theorem shardsDefect?_of_ofText (h : ofText text = .ok s) : shardsDefect? [] s.shards = none :=
  checks_of_ofText h _ (by simp [checks])

/-! ### Slices -/

/-- Two entries of one table are for two shards. -/
theorem index_ne_of_ofText (h : ofText text = .ok s) {i j : Nat} {a b : Shard} (hij : i ≠ j)
    (ha : s.shards[i]? = some a) (hb : s.shards[j]? = some b) (htable : a.table = b.table) :
    a.index ≠ b.index := by
  obtain ⟨-, hnodup, -⟩ := shardsDefect?_eq_none_iff.mp (shardsDefect?_of_ofText h)
  intro hindex
  have hid : a.id = b.id := by rw [Shard.id, Shard.id, htable, hindex]
  have hlt : i < (s.shards.map Shard.id).length := by
    rw [List.length_map]
    exact (List.getElem?_eq_some_iff.mp ha).1
  exact hij ((List.getElem?_inj hlt hnodup).mp (by simp [ha, hb, hid]))

/-- **When the hosted shards of a table have no hash id in common.**  Take any two entries of
accepted settings that name the same table.  Both own a slice, and the slices are apart if the
entries give the table the same number of shards.  In general they are apart if and only if the
shard after one of them begins no later than the other. -/
theorem hosted_slices_apart_iff (h : ofText text = .ok s) {i j : Nat} {a b : Shard} (hij : i ≠ j)
    (ha : s.shards[i]? = some a) (hb : s.shards[j]? = some b) (htable : a.table = b.table) :
    ∃ x y, HashSlice.ofShard? a.count a.index = some x ∧
      HashSlice.ofShard? b.count b.index = some y ∧ (a.count = b.count → x.Apart y) ∧
      (x.Apart y ↔
        HashSlice.firstId HashSpace.size a.count (a.index + 1) ≤
            HashSlice.firstId HashSpace.size b.count b.index ∨
          HashSlice.firstId HashSpace.size b.count (b.index + 1) ≤
            HashSlice.firstId HashSpace.size a.count a.index) := by
  obtain ⟨hexist, -, -⟩ := shardsDefect?_eq_none_iff.mp (shardsDefect?_of_ofText h)
  obtain ⟨x, hx⟩ := Option.isSome_iff_exists.mp (hexist a (List.mem_of_getElem? ha))
  obtain ⟨y, hy⟩ := Option.isSome_iff_exists.mp (hexist b (List.mem_of_getElem? hb))
  refine ⟨x, y, hx, hy, fun hcount => ?_, HashSlice.apart_iff_of_ofShard? hx hy⟩
  rw [← hcount] at hy
  exact HashSlice.apart_of_index_ne hx hy (index_ne_of_ofText h hij ha hb htable)

/-- The two halves of a table. -/
theorem hosted_slices_apart_of_two_halves :
    let text :=
      ("[[shards]]\ntable = \"orders\"\nindex = 0\nshard_count = 2\ncheckpoint_file = \"a\"\n" ++
      "[[shards]]\ntable = \"orders\"\nindex = 1\nshard_count = 2\ncheckpoint_file = \"b\"\n").toList
    ∃ s, ofText text = .ok s ∧ s.shards[0]? = some ⟨"orders", 0, 2, ⟨"a"⟩⟩ ∧
      s.shards[1]? = some ⟨"orders", 1, 2, ⟨"b"⟩⟩ ∧
      ∃ x y, HashSlice.ofShard? 2 0 = some x ∧ HashSlice.ofShard? 2 1 = some y ∧ x.Apart y := by
  intro text
  have hshards : (ofText text).toOption.map Settings.shards =
      some [⟨"orders", 0, 2, ⟨"a"⟩⟩, ⟨"orders", 1, 2, ⟨"b"⟩⟩] := by decide +kernel
  cases hs : ofText text with
  | error e => simp [hs, Except.toOption] at hshards
  | ok s =>
      rw [hs] at hshards
      obtain hlist := Option.some.inj hshards
      have ha : s.shards[0]? = some ⟨"orders", 0, 2, ⟨"a"⟩⟩ := by rw [hlist]; rfl
      have hb : s.shards[1]? = some ⟨"orders", 1, 2, ⟨"b"⟩⟩ := by rw [hlist]; rfl
      obtain ⟨x, y, hx, hy, hapart, -⟩ :=
        hosted_slices_apart_iff hs (by decide : 0 ≠ 1) ha hb rfl
      exact ⟨s, rfl, ha, hb, x, y, hx, hy, hapart rfl⟩

/-- One entry takes a table for a single shard, another one for two.  Both are accepted, and half of
the hash ids belong to two hosted shards. -/
theorem overlapping_shards_accepted :
    let text :=
      ("[[shards]]\ntable = \"orders\"\nindex = 0\nshard_count = 1\ncheckpoint_file = \"a\"\n" ++
      "[[shards]]\ntable = \"orders\"\nindex = 1\nshard_count = 2\ncheckpoint_file = \"b\"\n").toList
    ∃ s a b x y, ofText text = .ok s ∧ s.shards[0]? = some a ∧ s.shards[1]? = some b ∧
      a.table = b.table ∧ HashSlice.ofShard? a.count a.index = some x ∧
      HashSlice.ofShard? b.count b.index = some y ∧
      ∀ hashId, 32768 ≤ hashId → hashId ≤ 65535 → x.Owns hashId ∧ y.Owns hashId := by
  intro text
  have hshards : (ofText text).toOption.map Settings.shards =
      some [⟨"orders", 0, 1, ⟨"a"⟩⟩, ⟨"orders", 1, 2, ⟨"b"⟩⟩] := by decide +kernel
  cases hs : ofText text with
  | error e => simp [hs, Except.toOption] at hshards
  | ok s =>
      rw [hs] at hshards
      obtain hlist := Option.some.inj hshards
      have ha : s.shards[0]? = some ⟨"orders", 0, 1, ⟨"a"⟩⟩ := by rw [hlist]; rfl
      have hb : s.shards[1]? = some ⟨"orders", 1, 2, ⟨"b"⟩⟩ := by rw [hlist]; rfl
      exact ⟨s, _, _, ⟨0, 65535⟩, ⟨32768, 65535⟩, rfl, ha, hb, rfl, by decide, by decide,
        fun hashId hlo hhi => ⟨⟨Nat.zero_le _, hhi⟩, hlo, hhi⟩⟩

end ShardKeeper.Settings
