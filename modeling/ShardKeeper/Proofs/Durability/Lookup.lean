import Mathlib.Data.List.Infix
import ShardKeeper.Durability.History

/-!
# Look-ups in a checkpoint history

`CheckpointHistory.at?` reads the samples that trimming has left over.  This
file compares it with a scan of *all* samples from the new end, which knows of
no bounds and no trimming:

* `Sample.latest?` — the newest of some samples at or before a time.
* `CheckpointHistory.at?_eq_latest?` — on samples in the order of time the
  look-up is that scan.
* `Sample.latest?_of_suffix` — what the scan finds among the samples kept it
  finds among all of them.

Trimming may lose an answer but never changes one, and that is all that the
commit point depends on.

The order of time is no assumption on a history: `accepts` refuses a sample
older than the newest, and `newest?_trim` says that trimming keeps the newest,
so the refusal is about *everything* taken in before.
-/

namespace ShardKeeper

namespace Sample

/-- The newest of some samples at or before a time, by a scan from the new end. -/
def latest? (samples : List Sample) (time : Int) : Option Sample :=
  samples.findRev? fun s => s.timestamp ≤ time

/-- The samples stand in the order of time.  Equal times are allowed. -/
def InOrder (samples : List Sample) : Prop :=
  samples.Pairwise fun a b => a.timestamp ≤ b.timestamp

theorem latest?_eq_find? (samples : List Sample) (time : Int) :
    latest? samples time = samples.reverse.find? fun s => s.timestamp ≤ time :=
  List.findRev?_eq_find?_reverse

theorem latest?_append (older newer : List Sample) (time : Int) :
    latest? (older ++ newer) time = (latest? newer time).or (latest? older time) := by
  simp only [latest?_eq_find?, List.reverse_append, List.find?_append]

theorem latest?_concat_of_le {samples : List Sample} {s : Sample} {time : Int}
    (hle : s.timestamp ≤ time) : latest? (samples ++ [s]) time = some s := by
  rw [latest?_eq_find?, List.reverse_concat, List.find?_cons_of_pos (by simpa using hle)]

theorem mem_of_latest? {samples : List Sample} {time : Int} {s : Sample}
    (h : latest? samples time = some s) : s ∈ samples := by
  rw [latest?_eq_find?] at h
  exact List.mem_reverse.mp (List.mem_of_find?_eq_some h)

theorem timestamp_le_of_latest? {samples : List Sample} {time : Int} {s : Sample}
    (h : latest? samples time = some s) : s.timestamp ≤ time := by
  rw [latest?_eq_find?] at h
  simpa using List.find?_some h

/-- **Losing old samples never changes an answer**: what is found among the newer samples is found
among all. -/
theorem latest?_of_suffix {kept samples : List Sample} (hkept : kept <:+ samples) {time : Int}
    {s : Sample} (h : latest? kept time = some s) : latest? samples time = some s := by
  obtain ⟨older, rfl⟩ := hkept
  rw [latest?_append, h, Option.some_or]

/-- Among samples in the order of time, whatever is at or before a time stands no later than the
latest one there. -/
theorem eq_or_before_of_latest? {samples : List Sample} {time : Int} {s r : Sample}
    (h : latest? samples time = some s) (hr : r ∈ samples) (hle : r.timestamp ≤ time) :
    r = s ∨ ∃ older newer, samples = older ++ s :: newer ∧ r ∈ older := by
  rw [latest?_eq_find?, List.find?_eq_some_iff_append] at h
  obtain ⟨-, after, before, hsplit, hnone⟩ := h
  have hsamples : samples = before.reverse ++ s :: after.reverse := by
    rw [← List.reverse_reverse samples, hsplit]
    simp
  rw [hsamples] at hr
  rcases List.mem_append.mp hr with hbefore | hrest
  · exact Or.inr ⟨_, _, hsamples, hbefore⟩
  · rcases List.mem_cons.mp hrest with heq | hafter
    · exact Or.inl heq
    · have hnot := hnone r (List.mem_reverse.mp hafter)
      simp [hle] at hnot

theorem InOrder.suffix {kept samples : List Sample} (h : InOrder samples)
    (hkept : kept <:+ samples) : InOrder kept :=
  List.Pairwise.sublist hkept.sublist h

/-- One more sample, no older than the newest, keeps the order. -/
theorem InOrder.append_singleton {samples : List Sample} (h : InOrder samples) {s : Sample}
    (hnewest : ∀ r ∈ samples.getLast?, r.timestamp ≤ s.timestamp) : InOrder (samples ++ [s]) := by
  rcases List.eq_nil_or_concat' samples with rfl | ⟨front, last, rfl⟩
  · exact List.pairwise_singleton _ _
  · have hlast : last.timestamp ≤ s.timestamp := hnewest last (by simp)
    refine List.pairwise_append.mpr ⟨h, List.pairwise_singleton _ _, ?_⟩
    intro r hr t ht
    obtain rfl := List.mem_singleton.mp ht
    rcases List.mem_append.mp hr with hfront | hend
    · exact Int.le_trans ((List.pairwise_append.mp h).2.2 r hfront last (by simp)) hlast
    · rw [List.mem_singleton.mp hend]
      exact hlast

/-- In the order of time, reading up to the first sample that is too new finds all that are not. -/
theorem InOrder.takeWhile_eq_filter {samples : List Sample} (h : InOrder samples) (time : Int) :
    (samples.takeWhile fun s => s.timestamp ≤ time) =
      samples.filter fun s => s.timestamp ≤ time := by
  induction samples with
  | nil => rfl
  | cons s rest ih =>
      obtain ⟨hs, hrest⟩ := List.pairwise_cons.mp h
      by_cases hle : s.timestamp ≤ time
      · rw [List.takeWhile_cons_of_pos (by simpa using hle),
          List.filter_cons_of_pos (by simpa using hle), ih hrest]
      · -- all that follow are no older than the first that is too new
        have hnone : ∀ r ∈ rest, ¬ r.timestamp ≤ time := fun r hr hr' =>
          hle (Int.le_trans (hs r hr) hr')
        rw [List.takeWhile_cons_of_neg (by simpa using hle),
          List.filter_cons_of_neg (by simpa using hle), eq_comm, List.filter_eq_nil_iff]
        simpa using hnone

end Sample

namespace CheckpointHistory

open Sample

/-- **The look-up is a scan from the new end**, as long as the samples stand in the order of
time. -/
theorem at?_eq_latest? {h : CheckpointHistory} (horder : InOrder h.samples) (time : Int) :
    h.at? time = (latest? h.samples time).map Sample.checkpoint := by
  rw [at?, horder.takeWhile_eq_filter, List.getLast?_filter, latest?_eq_find?]

/-! ### What trimming keeps -/

theorem getLast?_dropAged (boundary : Int) (samples : List Sample) :
    (dropAged boundary samples).getLast? = samples.getLast? := by
  fun_induction dropAged boundary samples with
  | case1 a b rest _ ih => rw [ih, List.getLast?_cons_cons]
  | case2 => rfl
  | case3 => rfl

theorem getLast?_keepLast {count : Nat} (hcount : 1 ≤ count) (samples : List Sample) :
    (keepLast count samples).getLast? = samples.getLast? := by
  rw [keepLast, List.getLast?_drop]
  split
  · have hempty : samples.length = 0 := by omega
    simp [List.length_eq_zero_iff.mp hempty]
  · rfl

/-- Trimming keeps the newest sample: there is always room for one, and it is never out of age. -/
theorem newest?_trim {h : CheckpointHistory} (hroom : 1 ≤ h.maxSamples) (time : Int)
    (samples : List Sample) : (h.trim time samples).getLast? = samples.getLast? := by
  rw [trim, getLast?_dropAged, getLast?_keepLast hroom]

/-! ### One more sample -/

theorem add_of_accepts {h : CheckpointHistory} {time : Int} (hok : h.accepts time = true)
    (checkpoint : Int) :
    h.add time checkpoint =
      ({ h with samples := h.trim time (h.samples ++ [⟨time, checkpoint⟩]) }, true) :=
  if_pos hok

theorem add_of_not_accepts {h : CheckpointHistory} {time : Int} (hno : h.accepts time = false)
    (checkpoint : Int) : h.add time checkpoint = (h, false) :=
  if_neg (by simp [hno])

theorem accepts_iff (h : CheckpointHistory) (time : Int) :
    h.accepts time = true ↔ ∀ s ∈ h.newest?, s.timestamp ≤ time := by
  simp [accepts, Option.all_eq_true]

theorem maxSamples_empty_pos (maxSamples maxAge : Nat) : 1 ≤ (empty maxSamples maxAge).maxSamples :=
  Nat.le_max_left ..

end CheckpointHistory

end ShardKeeper
