import Mathlib.Order.Monotone.Basic
import ShardKeeper.HashSpace

/-!
# Slices of the hash space

## Main definitions

* `HashSlice.Owns` — the hash ids of a slice.
* `HashSlice.Apart` — slices without a common hash id.

## Main results

* `HashSlice.ofShard?_eq_some` — the bounds of a slice.
* `HashSlice.index_eq_of_ofShard?` — in a table of a given number of shards each slice has one
  owner.
* `HashSlice.apart_iff_of_ofShard?` — when two shards have no hash id in common, whatever the number
  of shards each of them is counted in.
* `HashSlice.apart_of_index_ne` — in a table of a given number of shards no two slices meet.
-/

namespace ShardKeeper

namespace HashSlice

variable {count index index' : Nat} {s : HashSlice}

/-- The first hash id of shard `index`, when a space of `size` ids is cut into `count` slices. -/
def firstId (size count index : Nat) : Nat := index * (size / count) + min index (size % count)

/-- The slices begin one after the other. -/
theorem firstId_strictMono {size : Nat} (hcount : 0 < count) (hsize : count ≤ size) :
    StrictMono (firstId size count) := by
  intro i j hij
  have hbase : 0 < size / count := Nat.div_pos hsize hcount
  have hlt : i * (size / count) < j * (size / count) := Nat.mul_lt_mul_of_pos_right hij hbase
  have hmin : min i (size % count) ≤ min j (size % count) := by omega
  exact Nat.add_lt_add_of_lt_of_le hlt hmin

/-- The bounds of a slice: it begins where the shard does, and it ends before the next one. -/
theorem ofShard?_eq_some (h : ofShard? count index = some s) :
    0 < count ∧ count ≤ HashSpace.size ∧ index < count ∧
      s.lo = firstId HashSpace.size count index ∧
      s.hi + 1 = firstId HashSpace.size count (index + 1) := by
  unfold ofShard? at h
  obtain ⟨hbounds, heq⟩ := Option.ite_none_left_eq_some.mp h
  simp only [Bool.or_eq_true, decide_eq_true_eq, not_or, not_lt, not_le] at hbounds
  obtain ⟨⟨hcount, hsize⟩, hindex⟩ := hbounds
  have hpos : 0 < count := Nat.pos_of_ne_zero hcount
  refine ⟨hpos, hsize, hindex, ?_, ?_⟩
  · rw [← Option.some.inj heq]
    rfl
  · have hbase : 0 < HashSpace.size / count := Nat.div_pos hsize hpos
    rw [← Option.some.inj heq]
    simp only [firstId, Nat.succ_mul]
    split <;> omega

/-- **In a table of a given number of shards each slice has one owner.** -/
theorem index_eq_of_ofShard? (h : ofShard? count index = some s)
    (h' : ofShard? count index' = some s) : index = index' := by
  obtain ⟨hpos, hsize, -, hlo, -⟩ := ofShard?_eq_some h
  obtain ⟨-, -, -, hlo', -⟩ := ofShard?_eq_some h'
  exact (firstId_strictMono hpos hsize).injective (hlo.symm.trans hlo')

/-! ### Hash ids -/

/-- A hash id lies in a slice. -/
def Owns (s : HashSlice) (hashId : Nat) : Prop := s.lo ≤ hashId ∧ hashId ≤ s.hi

/-- Two slices have no hash id in common. -/
def Apart (s t : HashSlice) : Prop := ∀ hashId, ¬(s.Owns hashId ∧ t.Owns hashId)

/-- No slice of a table is empty. -/
theorem lo_le_hi (h : ofShard? count index = some s) : s.lo ≤ s.hi := by
  obtain ⟨hpos, hsize, -, hlo, hhi⟩ := ofShard?_eq_some h
  have hlt : firstId HashSpace.size count index < firstId HashSpace.size count (index + 1) :=
    firstId_strictMono hpos hsize (Nat.lt_succ_self index)
  omega

/-- Slices that are not empty have nothing in common when one ends before the other begins. -/
theorem apart_iff {t : HashSlice} (hs : s.lo ≤ s.hi) (ht : t.lo ≤ t.hi) :
    s.Apart t ↔ s.hi < t.lo ∨ t.hi < s.lo := by
  constructor
  · intro h
    by_contra hmeet
    -- the later beginning lies in both
    exact h (max s.lo t.lo) ⟨⟨by omega, by omega⟩, ⟨by omega, by omega⟩⟩
  · rintro hlt hashId ⟨⟨_, _⟩, ⟨_, _⟩⟩
    omega

/-- **When two shards have no hash id in common**: the shard after the one begins no later than the
other, or the other way round. -/
theorem apart_iff_of_ofShard? {count' : Nat} {t : HashSlice} (hs : ofShard? count index = some s)
    (ht : ofShard? count' index' = some t) :
    s.Apart t ↔
      firstId HashSpace.size count (index + 1) ≤ firstId HashSpace.size count' index' ∨
        firstId HashSpace.size count' (index' + 1) ≤ firstId HashSpace.size count index := by
  obtain ⟨-, -, -, hlo, hhi⟩ := ofShard?_eq_some hs
  obtain ⟨-, -, -, hlo', hhi'⟩ := ofShard?_eq_some ht
  rw [apart_iff (lo_le_hi hs) (lo_le_hi ht), ← hlo, ← hlo', ← hhi, ← hhi']
  omega

/-- **In a table of a given number of shards no two slices meet.** -/
theorem apart_of_index_ne {t : HashSlice} (hs : ofShard? count index = some s)
    (ht : ofShard? count index' = some t) (hne : index ≠ index') : s.Apart t := by
  obtain ⟨hpos, hsize, -, -, -⟩ := ofShard?_eq_some hs
  have hmono := (firstId_strictMono hpos hsize).monotone
  rw [apart_iff_of_ofShard? hs ht]
  rcases Nat.lt_or_gt_of_ne hne with hlt | hgt
  · exact Or.inl (hmono hlt)
  · exact Or.inr (hmono hgt)

end HashSlice

end ShardKeeper
