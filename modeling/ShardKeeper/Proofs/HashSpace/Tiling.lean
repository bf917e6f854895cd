import Mathlib.Data.List.Basic
import ShardKeeper.Proofs.HashSpace
import ShardKeeper.Proofs.Text.Decimal

/-!
# The slices of a table tile the hash space

For every number of shards the slices follow each other without a gap, cover the
whole space and are of nearly the same length.  The bounds of a slice can be
computed in words of 32 bits, and the two names of a slice tell it from any
other.

## Main definitions

* `Word.sum?`, `Word.product?`, `Word.difference?` — arithmetic in 32 bits that fails where a result
  is no word.
* `HashSlice.ofShardInWords?` — the bounds of a slice, computed with it.
* `HashSlice.Tile` — slices that tile the space.

## Main results

* `HashSlice.ofShardInWords?_eq` — the computation in words never fails.
* `HashSlice.Tile.existsUnique_owner` — in a tiling each hash id has one owner.
* `HashSlice.tile_ofShard?` — the slices of a table are a tiling.
* `HashSlice.slices_tile` — all of it, and the names.
-/

namespace ShardKeeper

/-! ### Words -/

namespace Word

variable {a b : UInt32}

/-- The sum of two words, unless it is no word. -/
def sum? (a b : UInt32) : Option UInt32 :=
  if a.toNat + b.toNat < UInt32.size then some (a + b) else none

/-- The product of two words, unless it is no word. -/
def product? (a b : UInt32) : Option UInt32 :=
  if a.toNat * b.toNat < UInt32.size then some (a * b) else none

/-- The difference of two words, unless it is no word. -/
def difference? (a b : UInt32) : Option UInt32 :=
  if b.toNat ≤ a.toNat then some (a - b) else none

theorem exists_sum (h : a.toNat + b.toNat < UInt32.size) :
    ∃ c, sum? a b = some c ∧ c.toNat = a.toNat + b.toNat :=
  ⟨_, if_pos h, (UInt32.toNat_add a b).trans (Nat.mod_eq_of_lt h)⟩

theorem exists_product (h : a.toNat * b.toNat < UInt32.size) :
    ∃ c, product? a b = some c ∧ c.toNat = a.toNat * b.toNat :=
  ⟨_, if_pos h, (UInt32.toNat_mul a b).trans (Nat.mod_eq_of_lt h)⟩

theorem exists_difference (h : b.toNat ≤ a.toNat) :
    ∃ c, difference? a b = some c ∧ c.toNat = a.toNat - b.toNat :=
  ⟨_, if_pos h, UInt32.toNat_sub_of_le a b (UInt32.le_iff_toNat_le.mpr h)⟩

theorem toNat_min (a b : UInt32) : (min a b).toNat = min a.toNat b.toNat := by
  show (if a ≤ b then a else b).toNat = _
  split
  · rename_i h
    exact (Nat.min_eq_left (UInt32.le_iff_toNat_le.mp h)).symm
  · rename_i h
    exact (Nat.min_eq_right (Nat.le_of_not_le (mt UInt32.le_iff_toNat_le.mpr h))).symm

end Word

namespace HashSlice

variable {count : ℕ} {s t : HashSlice}

/-! ### Bounds in words -/

/-- The slice with bounds that are words. -/
def ofWords (bounds : UInt32 × UInt32) : HashSlice := ⟨bounds.1.toNat, bounds.2.toNat⟩

/-- The bounds of the slice of shard `index`, computed in words: nothing when some result on the way
is no word.  Each slice has `base` hash ids, and the first `extra` slices have one more. -/
def boundsInWords? (base extra index : UInt32) : Option (UInt32 × UInt32) := do
  let whole ← Word.product? index base
  let lo ← Word.sum? whole (min index extra)
  let length ← Word.sum? base (if index < extra then 1 else 0)
  let next ← Word.sum? lo length
  let hi ← Word.difference? next 1
  return (lo, hi)

/-- `ofShard?` in words; nothing at all when the computation fails. -/
def ofShardInWords? (count index : UInt32) : Option (Option HashSlice) :=
  let size := UInt32.ofNat HashSpace.size
  if count = 0 || size < count || count ≤ index then some none
  else (boundsInWords? (size / count) (size % count) index).map fun bounds => some (ofWords bounds)

/-- When a shard has a slice. -/
theorem ofShard?_isSome_iff (count index : ℕ) :
    (ofShard? count index).isSome = true ↔
      1 ≤ count ∧ count ≤ HashSpace.size ∧ index < count := by
  unfold ofShard?
  split
  · rename_i h
    simp only [Bool.or_eq_true, decide_eq_true_eq] at h
    simp only [Option.isSome_none, Bool.false_eq_true, false_iff]
    omega
  · rename_i h
    simp only [Bool.or_eq_true, decide_eq_true_eq] at h
    simp only [Option.isSome_some, true_iff]
    omega

/-- The shard after the last one would begin where the space ends. -/
theorem firstId_count {size count : ℕ} (hcount : 0 < count) : firstId size count count = size := by
  have hmod : size % count < count := Nat.mod_lt _ hcount
  rw [firstId, Nat.min_eq_right (Nat.le_of_lt hmod)]
  exact Nat.div_add_mod size count

theorem firstId_le {size count i : ℕ} (hcount : 0 < count) (hsize : count ≤ size)
    (hi : i ≤ count) : firstId size count i ≤ size :=
  ((firstId_strictMono hcount hsize).monotone hi).trans_eq (firstId_count hcount)

/-- The first shards own one hash id more than the others. -/
theorem firstId_succ (size count i : ℕ) :
    firstId size count (i + 1) =
      firstId size count i + (size / count + if i < size % count then 1 else 0) := by
  rw [firstId, firstId, Nat.succ_mul]
  split <;> omega

/-- Nothing fails on the way to a slice that ends within the words. -/
theorem boundsInWords?_eq (base extra index : UInt32) (hbase : 0 < base.toNat)
    (hend : index.toNat * base.toNat + min index.toNat extra.toNat +
      (base.toNat + if index.toNat < extra.toNat then 1 else 0) < UInt32.size) :
    ∃ bounds, boundsInWords? base extra index = some bounds ∧
      bounds.1.toNat = index.toNat * base.toNat + min index.toNat extra.toNat ∧
      bounds.2.toNat = index.toNat * base.toNat + min index.toNat extra.toNat +
        (base.toNat + if index.toNat < extra.toNat then 1 else 0) - 1 := by
  have hone : (if index < extra then (1 : UInt32) else 0).toNat =
      if index.toNat < extra.toNat then 1 else 0 := by
    simp only [UInt32.lt_iff_toNat_lt]
    split <;> rfl
  obtain ⟨whole, hwhole, hwhole'⟩ := Word.exists_product (a := index) (b := base) (by omega)
  obtain ⟨lo, hlo, hlo'⟩ := Word.exists_sum (a := whole) (b := min index extra)
    (by rw [Word.toNat_min, hwhole']; omega)
  rw [Word.toNat_min, hwhole'] at hlo'
  obtain ⟨length, hlength, hlength'⟩ := Word.exists_sum (a := base)
    (b := if index < extra then 1 else 0) (by rw [hone]; omega)
  rw [hone] at hlength'
  obtain ⟨next, hnext, hnext'⟩ := Word.exists_sum (a := lo) (b := length)
    (by rw [hlo', hlength']; exact hend)
  obtain ⟨hi, hhi, hhi'⟩ := Word.exists_difference (a := next) (b := 1)
    (by rw [hnext', hlength', UInt32.toNat_one]; omega)
  refine ⟨(lo, hi), ?_, hlo', ?_⟩
  · simp [boundsInWords?, hwhole, hlo, hlength, hnext, hhi]
  · rw [hhi', hnext', hlo', hlength', UInt32.toNat_one]

/-- **A slice can be computed in words**: no result on the way is too large, and none is negative.
-/
theorem ofShardInWords?_eq (count index : UInt32) :
    ofShardInWords? count index = some (ofShard? count.toNat index.toNat) := by
  have hsize : (UInt32.ofNat HashSpace.size).toNat = HashSpace.size := by decide
  have hguard : (decide (count = 0) || decide (UInt32.ofNat HashSpace.size < count) ||
      decide (count ≤ index)) = (decide (count.toNat = 0) ||
      decide (HashSpace.size < count.toNat) || decide (count.toNat ≤ index.toNat)) := by
    simp only [UInt32.lt_iff_toNat_lt, hsize, UInt32.le_iff_toNat_le, ← UInt32.toNat_inj,
      UInt32.toNat_zero]
  rw [ofShardInWords?, ofShard?, hguard]
  dsimp only
  split
  · rfl
  · rename_i h
    simp only [Bool.or_eq_true, decide_eq_true_eq, not_or, not_lt, not_le] at h
    obtain ⟨⟨hzero, hlarge⟩, hindex⟩ := h
    have hcount : 0 < count.toNat := Nat.pos_of_ne_zero hzero
    -- the slice ends within the space, and so does everything on the way to its end
    have hend := firstId_le hcount hlarge (Nat.succ_le_of_lt hindex)
    rw [firstId_succ, firstId] at hend
    obtain ⟨bounds, hbounds, hlo, hhi⟩ := boundsInWords?_eq
      (UInt32.ofNat HashSpace.size / count) (UInt32.ofNat HashSpace.size % count) index
      (by rw [UInt32.toNat_div, hsize]; exact Nat.div_pos hlarge hcount)
      (by rw [UInt32.toNat_div, UInt32.toNat_mod, hsize]; exact hend.trans_lt (by decide))
    rw [UInt32.toNat_div, UInt32.toNat_mod, hsize] at hlo hhi
    rw [hbounds, Option.map_some, ofWords, hlo, hhi]

/-! ### Tilings -/

/-- The number of hash ids in a slice that is not empty. -/
def length (s : HashSlice) : ℕ := s.hi + 1 - s.lo

/-- The first `count` slices tile the hash space: they follow each other from its first id to its
last one, none is empty, and no slice is shorter than a later one, nor longer by more than
one id. -/
structure Tile (count : ℕ) (slice : ℕ → HashSlice) : Prop where
  nonempty : ∀ i < count, (slice i).lo ≤ (slice i).hi
  first : (slice 0).lo = 0
  next : ∀ i, i + 1 < count → (slice (i + 1)).lo = (slice i).hi + 1
  last : (slice (count - 1)).hi + 1 = HashSpace.size
  even : ∀ i j, i ≤ j → j < count →
    (slice j).length ≤ (slice i).length ∧ (slice i).length ≤ (slice j).length + 1

namespace Tile

variable {slice : ℕ → HashSlice} {i j hashId : ℕ}

/-- Of two slices the later one begins where the earlier one has ended. -/
theorem hi_lt_lo (h : Tile count slice) (hij : i < j) (hj : j < count) :
    (slice i).hi < (slice j).lo := by
  induction j, hij using Nat.le_induction with
  | base => exact Nat.lt_of_lt_of_eq (Nat.lt_succ_self _) (h.next i hj).symm
  | succ j hij ih =>
      calc (slice i).hi < (slice j).lo := ih (by omega)
        _ ≤ (slice j).hi := h.nonempty j (by omega)
        _ < (slice (j + 1)).lo := Nat.lt_of_lt_of_eq (Nat.lt_succ_self _) (h.next j hj).symm

/-- The hash ids up to the end of a slice lie in that slice or in one before it. -/
theorem exists_owner (h : Tile count slice) (hi : i < count) (hid : hashId ≤ (slice i).hi) :
    ∃ j ≤ i, (slice j).Owns hashId := by
  induction i with
  | zero => exact ⟨0, Nat.le_refl 0, h.first.trans_le (Nat.zero_le _), hid⟩
  | succ i ih =>
      by_cases hbefore : hashId ≤ (slice i).hi
      · obtain ⟨j, hj, howns⟩ := ih (by omega) hbefore
        exact ⟨j, by omega, howns⟩
      · exact ⟨i + 1, Nat.le_refl _, (h.next i hi).trans_le (by omega), hid⟩

/-- **In a tiling each hash id has one owner.** -/
theorem existsUnique_owner (h : Tile count slice) (hcount : 0 < count)
    (hid : hashId < HashSpace.size) : ∃! i, i < count ∧ (slice i).Owns hashId := by
  have hlast := h.last
  have hle : hashId ≤ (slice (count - 1)).hi := by omega
  obtain ⟨i, hi, howns⟩ := h.exists_owner (by omega) hle
  refine ⟨i, ⟨by omega, howns⟩, ?_⟩
  rintro j ⟨hj, howns'⟩
  by_contra hne
  rcases Nat.lt_or_gt_of_ne hne with hlt | hgt
  · have hbefore := h.hi_lt_lo hlt (by omega)
    exact absurd (howns'.2.trans_lt hbefore) (Nat.not_lt.mpr howns.1)
  · have hbefore := h.hi_lt_lo hgt hj
    exact absurd (howns.2.trans_lt hbefore) (Nat.not_lt.mpr howns'.1)

end Tile

/-- The slice of a shard that exists. -/
def ofShard (count index : ℕ) : HashSlice := (ofShard? count index).getD default

theorem ofShard?_eq_ofShard (hcount : 1 ≤ count) (hsize : count ≤ HashSpace.size)
    (hindex : index < count) : ofShard? count index = some (ofShard count index) := by
  obtain ⟨s, hs⟩ := Option.isSome_iff_exists.mp
    ((ofShard?_isSome_iff count index).mpr ⟨hcount, hsize, hindex⟩)
  rw [ofShard, hs]
  rfl

/-- **The slices of a table are a tiling.** -/
theorem tile_ofShard (hcount : 1 ≤ count) (hsize : count ≤ HashSpace.size) :
    Tile count (ofShard count) := by
  have hbounds : ∀ i < count, (ofShard count i).lo = firstId HashSpace.size count i ∧
      (ofShard count i).hi + 1 = firstId HashSpace.size count (i + 1) := fun i hi =>
    (ofShard?_eq_some (ofShard?_eq_ofShard hcount hsize hi)).2.2.2
  have hlength : ∀ i < count, (ofShard count i).length =
      HashSpace.size / count + if i < HashSpace.size % count then 1 else 0 := by
    intro i hi
    rw [length, (hbounds i hi).1, (hbounds i hi).2, firstId_succ, Nat.add_sub_cancel_left]
  refine ⟨fun i hi => lo_le_hi (ofShard?_eq_ofShard hcount hsize hi), ?_, ?_, ?_, ?_⟩
  · rw [(hbounds 0 hcount).1, firstId, Nat.zero_mul, Nat.zero_min]
  · intro i hi
    rw [(hbounds (i + 1) hi).1, (hbounds i (by omega)).2]
  · rw [(hbounds (count - 1) (by omega)).2, Nat.sub_add_cancel hcount, firstId_count hcount]
  · intro i j hij hj
    rw [hlength i (by omega), hlength j hj]
    split <;> split <;> omega

/-! ### Names -/

/-- The text of the bounds can be read in one way only: no digit is an underscore. -/
theorem boundsText_injective : Function.Injective boundsText := by
  intro s t h
  have hdigits : ∀ n, '_' ∉ Decimal.ofNat n := fun n hmem =>
    absurd (Decimal.isDigit_of_mem_ofNat hmem) (by decide)
  obtain ⟨hlo, -, hhi⟩ := (List.append_cons_inj_of_notMem (hdigits s.lo) (hdigits s.hi)).mp h
  have hvalue : ∀ m n, Decimal.ofNat m = Decimal.ofNat n → m = n := fun m n heq => by
    rw [← Decimal.value_ofNat m, heq, Decimal.value_ofNat]
  exact (HashSlice.mk.injEq ..).mpr ⟨hvalue _ _ hlo, hvalue _ _ hhi⟩

/-- **A partition id belongs to one slice.** -/
theorem partitionId_inj : s.partitionId = t.partitionId ↔ s = t :=
  ⟨fun h => boundsText_injective (String.ofList_injective h), congrArg partitionId⟩

/-- **A directory name belongs to one slice.** -/
theorem directoryName_inj : s.directoryName = t.directoryName ↔ s = t :=
  ⟨fun h => boundsText_injective (List.append_cancel_left (String.ofList_injective h)),
    congrArg directoryName⟩

/-! ### All tables -/

/-- **The slices of a table**, for every number of shards:

* a shard has a slice exactly if there are such many shards and such a shard among them, and the
  slice can be computed in words of 32 bits without a result that is too large or negative;
* the slices of all shards tile the hash space, and each hash id has one owner;
* two slices have the same name in the catalog, or the same directory, only if they are equal. -/
theorem slices_tile :
    (∀ count index : UInt32,
      ((ofShard? count.toNat index.toNat).isSome = true ↔
        1 ≤ count.toNat ∧ count.toNat ≤ 65536 ∧ index.toNat < count.toNat) ∧
      ofShardInWords? count index = some (ofShard? count.toNat index.toNat)) ∧
    (∀ count : ℕ, 1 ≤ count → count ≤ 65536 → ∃ slice : ℕ → HashSlice,
      (∀ i < count, ofShard? count i = some (slice i)) ∧ Tile count slice ∧
      ∀ hashId < 65536, ∃! i, i < count ∧ (slice i).Owns hashId) ∧
    ∀ s t : HashSlice, (s.partitionId = t.partitionId ↔ s = t) ∧
      (s.directoryName = t.directoryName ↔ s = t) := by
  refine ⟨fun count index => ⟨ofShard?_isSome_iff _ _, ofShardInWords?_eq count index⟩, ?_,
    fun s t => ⟨partitionId_inj, directoryName_inj⟩⟩
  intro count hcount hsize
  have htile := tile_ofShard hcount hsize
  exact ⟨ofShard count, fun i hi => ofShard?_eq_ofShard hcount hsize hi, htile,
    fun hashId hid => htile.existsUnique_owner hcount hid⟩

/-- Three shards: the first slice is one id longer than the others, and the id after its end
belongs to the second shard and to no other. -/
theorem slices_tile_three :
    1 ≤ 3 ∧ 3 ≤ 65536 ∧ ∃ slice : ℕ → HashSlice, slice 0 = ⟨0, 21845⟩ ∧ slice 1 = ⟨21846, 43690⟩ ∧
      slice 2 = ⟨43691, 65535⟩ ∧ Tile 3 slice ∧
      ∃! i, i < 3 ∧ (slice i).Owns 21846 := by
  obtain ⟨slice, hslice, htile, howner⟩ := slices_tile.2.1 3 (by decide) (by decide)
  have hvalue : ∀ i < 3, ∀ s, ofShard? 3 i = some s → slice i = s := fun i hi s hs =>
    Option.some.inj ((hslice i hi).symm.trans hs)
  exact ⟨by decide, by decide, slice, hvalue 0 (by decide) _ (by decide),
    hvalue 1 (by decide) _ (by decide), hvalue 2 (by decide) _ (by decide), htile,
    howner 21846 (by decide)⟩

end HashSlice

end ShardKeeper
