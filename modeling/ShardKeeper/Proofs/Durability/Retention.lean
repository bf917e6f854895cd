import ShardKeeper.Proofs.Durability.Lookup

/-!
# What a checkpoint history retains

A history takes samples in one at a time and trims itself after each.  This file
says what is left over without a word about how it came about: take all samples
that were ever taken in, and keep the longest end of them that is within the
bounds.

## Main definitions

* `Sample.taken` — which of the samples offered one after the other are taken in.
* `Sample.IsLongestWithin` — the longest end of some samples that is within bounds on its number
  and its age.
* `Sample.IsLastAt` — the last of some samples at or before a time, with those behind it.
* `CheckpointHistory.IsEndOf` — what a history holds, refuses and answers, said of all samples
  taken in.

## Main results

* `CheckpointHistory.isLongestWithin_trim` — what trimming does to a list of samples.
* `Sample.IsLongestWithin.concat` — trimming what was trimmed before comes to the same.
* `CheckpointHistory.Retains.add`, `CheckpointHistory.retains_addAll` — hence a history retains the
  longest end, after each sample and after any samples.
* `CheckpointHistory.retained_from_scratch` — with what it refuses and what it answers.

What carries the induction is that the age limit never moves back: whatever was
out of bounds before is out of bounds from then on.
-/

namespace ShardKeeper

namespace Sample

/-- Those of the samples offered one after the other that are taken in: each that is no older than
the last one taken in before it. -/
def taken (offers : List Sample) : List Sample :=
  offers.foldl (fun before s =>
    if before.getLast?.all fun newest => newest.timestamp ≤ s.timestamp then before ++ [s]
    else before) []

/-- The time at which samples are out of age, seen from the newest one: `maxAge` milliseconds before
it. The age and the limit both end where 64 bits do. -/
def ageLimit (maxAge : Nat) (newest : Sample) : Int :=
  max Decimal.minInt64
    (min Decimal.maxInt64 (newest.timestamp - min (maxAge : Int) Decimal.maxInt64))

/-- At most `count` samples, of which the second one is newer than `limit`. -/
structure Within (count : Nat) (limit : Int) (samples : List Sample) : Prop where
  length_le : samples.length ≤ count
  second : ∀ s ∈ samples[1]?, limit < s.timestamp

/-- The longest end of some samples that is within the bounds. -/
structure IsLongestWithin (count : Nat) (limit : Int) (kept samples : List Sample) : Prop where
  isSuffix : kept <:+ samples
  within : Within count limit kept
  longest : ∀ other, other <:+ samples → Within count limit other → other.length ≤ kept.length

/-- The last of some samples at or before a time, and those behind it. -/
structure IsLastAt (samples : List Sample) (time : Int) (s : Sample) (behind : List Sample) :
    Prop where
  isSuffix : s :: behind <:+ samples
  le : s.timestamp ≤ time
  later : ∀ r ∈ behind, time < r.timestamp

theorem taken_concat_of_le {offers : List Sample} {s : Sample}
    (h : ∀ newest ∈ (taken offers).getLast?, newest.timestamp ≤ s.timestamp) :
    taken (offers ++ [s]) = taken offers ++ [s] := by
  rw [taken, List.foldl_append]
  exact if_pos (by simpa [Option.all_eq_true, taken] using h)

theorem taken_concat_of_not_le {offers : List Sample} {s : Sample}
    (h : ¬ ∀ newest ∈ (taken offers).getLast?, newest.timestamp ≤ s.timestamp) :
    taken (offers ++ [s]) = taken offers := by
  rw [taken, List.foldl_append]
  exact if_neg (by simpa [Option.all_eq_true, taken] using h)

/-- The age limit follows the newest sample. -/
theorem ageLimit_mono (maxAge : Nat) {r s : Sample} (h : r.timestamp ≤ s.timestamp) :
    ageLimit maxAge r ≤ ageLimit maxAge s := by
  unfold ageLimit
  omega

/-! ### Ends within the bounds -/

variable {count : Nat} {limit limit' : Int} {kept samples : List Sample} {s : Sample}

/-- A single sample is within all bounds that have room for it. -/
theorem within_singleton (hcount : 1 ≤ count) : Within count limit [s] :=
  ⟨hcount, fun _ h => by cases h⟩

/-- Earlier limits are wider, and so are the bounds on fewer samples. -/
theorem Within.of_concat (h : Within count limit' (samples ++ [s])) (hlimit : limit ≤ limit') :
    Within count limit samples := by
  have hlength := h.length_le
  rw [List.length_append] at hlength
  refine ⟨Nat.le_of_add_right_le hlength, fun r hr => ?_⟩
  have hlt : 1 < samples.length := (List.getElem?_eq_some_iff.mp hr).1
  exact Int.lt_of_le_of_lt hlimit (h.second r (by rw [List.getElem?_append_left hlt]; exact hr))

namespace IsLongestWithin

/-- Every end within the bounds is an end of the longest one. -/
theorem isSuffix_of_within (h : IsLongestWithin count limit kept samples) {other : List Sample}
    (hother : other <:+ samples) (hwithin : Within count limit other) : other <:+ kept :=
  List.suffix_of_suffix_length_le hother h.isSuffix (h.longest other hother hwithin)

/-- **Trimming what was trimmed before comes to the same.** An end that a later limit leaves over
was left over, up to its newest sample, by every earlier one. -/
theorem concat (h : IsLongestWithin count limit kept samples) (hlimit : limit ≤ limit')
    {kept' : List Sample} (h' : IsLongestWithin count limit' kept' (kept ++ [s])) :
    IsLongestWithin count limit' kept' (samples ++ [s]) where
  isSuffix := h'.isSuffix.trans (List.suffix_concat_iff.mpr (Or.inr ⟨kept, rfl, h.isSuffix⟩))
  within := h'.within
  longest := by
    intro other hother hwithin
    refine h'.longest other ?_ hwithin
    rcases List.suffix_concat_iff.mp hother with rfl | ⟨front, rfl, hfront⟩
    · exact List.nil_suffix
    · have hkept := h.isSuffix_of_within hfront (hwithin.of_concat hlimit)
      exact List.suffix_concat_iff.mpr (Or.inr ⟨front, rfl, hkept⟩)

/-- The newest sample is always retained, as long as there is room for one. -/
theorem getLast? (h : IsLongestWithin count limit kept samples) (hcount : 1 ≤ count) :
    kept.getLast? = samples.getLast? := by
  rcases List.eq_nil_or_concat' samples with rfl | ⟨front, newest, rfl⟩
  · rw [List.suffix_nil.mp h.isSuffix]
  · obtain ⟨older, rfl⟩ := h.isSuffix_of_within (List.suffix_append front [newest])
      (within_singleton hcount)
    rw [List.getLast?_concat, List.getLast?_concat]

end IsLongestWithin

/-! ### The last sample at a time -/

variable {time : Int} {behind : List Sample}

theorem latest?_eq_none (hlater : ∀ r ∈ samples, time < r.timestamp) :
    latest? samples time = none := by
  rw [latest?_eq_find?, List.find?_eq_none]
  intro r hr
  simpa using hlater r (List.mem_reverse.mp hr)

theorem IsLastAt.latest?_eq (h : IsLastAt samples time s behind) :
    latest? samples time = some s := by
  obtain ⟨older, rfl⟩ := h.isSuffix
  have hend : latest? ([s] ++ behind) time = some s := by
    rw [latest?_append, latest?_eq_none h.later, Option.none_or, ← List.nil_append [s],
      latest?_concat_of_le h.le]
  rw [latest?_append, ← List.singleton_append, hend, Option.some_or]

/-- The last sample at a time is the last one there of every end that it is retained in. -/
theorem IsLastAt.of_suffix (h : IsLastAt samples time s behind) (hretained : s :: behind <:+ kept) :
    IsLastAt kept time s behind :=
  ⟨hretained, h.le, h.later⟩

/-- An end that the last sample at a time is not retained in holds newer samples only. -/
theorem IsLastAt.newer (h : IsLastAt samples time s behind) (hkept : kept <:+ samples)
    (hlost : ¬ s :: behind <:+ kept) : ∀ r ∈ kept, time < r.timestamp := by
  have hproper : kept <:+ s :: behind :=
    (List.suffix_or_suffix_of_suffix h.isSuffix hkept).resolve_left hlost
  rcases List.suffix_cons_iff.mp hproper with rfl | hbehind
  · exact absurd List.suffix_rfl hlost
  · exact fun r hr => h.later r (hbehind.subset hr)

/-- At any time either all samples are newer, or one of them is the last one there. -/
theorem newer_or_isLastAt (samples : List Sample) (time : Int) :
    (∀ r ∈ samples, time < r.timestamp) ∨ ∃ s behind, IsLastAt samples time s behind := by
  induction samples with
  | nil => exact Or.inl fun _ h => by cases h
  | cons first rest ih =>
      rcases ih with hnewer | ⟨s, behind, hlast⟩
      · by_cases hfirst : first.timestamp ≤ time
        · exact Or.inr ⟨first, rest, List.suffix_rfl, hfirst, hnewer⟩
        · exact Or.inl (List.forall_mem_cons.mpr ⟨Int.not_le.mp hfirst, hnewer⟩)
      · exact Or.inr ⟨s, behind, hlast.isSuffix.trans (List.suffix_cons first rest), hlast.le,
          hlast.later⟩

/-- A sample out of the bounds that is no older than the limit is out of them by number. -/
theorem IsLastAt.count_le (h : IsLastAt samples time s behind)
    (hlongest : IsLongestWithin count limit kept samples) (hlimit : limit ≤ time)
    (hlost : ¬ s :: behind <:+ kept) : count ≤ behind.length := by
  by_contra hroom
  refine hlost (hlongest.isSuffix_of_within h.isSuffix ⟨Nat.not_le.mp hroom, fun r hr => ?_⟩)
  rw [List.getElem?_cons_succ] at hr
  exact Int.lt_of_le_of_lt hlimit (h.later r (List.mem_of_getElem? hr))

end Sample

namespace CheckpointHistory

open Sample

/-! ### What trimming leaves over -/

theorem second_dropAged (boundary : Int) (samples : List Sample) :
    ∀ s ∈ (dropAged boundary samples)[1]?, boundary < s.timestamp := by
  fun_induction dropAged boundary samples with
  | case1 a b rest _ ih => exact ih
  | case2 a b rest hnewer =>
      intro s hs
      rw [← Option.some_inj.mp hs]
      exact Int.not_le.mp hnewer
  | case3 samples hshort =>
      intro s hs
      rcases samples with _ | ⟨a, _ | ⟨b, rest⟩⟩
      · cases hs
      · cases hs
      · exact absurd rfl (hshort a b rest)

/-- No longer end has a second sample that is newer than the boundary. -/
theorem length_le_dropAged (boundary : Int) (samples : List Sample) {other : List Sample}
    (hother : other <:+ samples) (hsecond : ∀ s ∈ other[1]?, boundary < s.timestamp) :
    other.length ≤ (dropAged boundary samples).length := by
  fun_induction dropAged boundary samples with
  | case1 a b rest haged ih =>
      rcases List.suffix_cons_iff.mp hother with rfl | hrest
      · exact absurd haged (Int.not_le.mpr (hsecond b rfl))
      · exact ih hrest
  | case2 => exact hother.length_le
  | case3 => exact hother.length_le

/-- **Trimming leaves the longest end within the bounds.** -/
theorem isLongestWithin_trim (h : CheckpointHistory) (time : Int) (samples : List Sample) :
    IsLongestWithin h.maxSamples (h.ageBoundary time) (h.trim time samples) samples where
  isSuffix := h.trim_suffix time samples
  within := by
    have hlength := (dropAged_suffix (h.ageBoundary time) (keepLast h.maxSamples samples)).length_le
    rw [keepLast_length] at hlength
    exact ⟨Nat.le_trans hlength (Nat.min_le_left ..), second_dropAged _ _⟩
  longest := by
    intro other hother hwithin
    have hcounted : other.length ≤ (keepLast h.maxSamples samples).length := by
      rw [keepLast_length]
      exact Nat.le_min.mpr ⟨hwithin.length_le, hother.length_le⟩
    have hkept : other <:+ keepLast h.maxSamples samples :=
      List.suffix_of_suffix_length_le hother (List.drop_suffix _ _) hcounted
    exact length_le_dropAged _ _ hkept hwithin.second

/-! ### One sample after the other -/

/-- The history after some samples were offered to it, one after the other. -/
def addAll (h : CheckpointHistory) (offers : List Sample) : CheckpointHistory :=
  offers.foldl (fun h s => (h.add s.timestamp s.checkpoint).1) h

theorem snd_add (h : CheckpointHistory) (time checkpoint : Int) :
    (h.add time checkpoint).2 = h.accepts time := by
  cases hok : h.accepts time with
  | true => rw [add_of_accepts hok]
  | false => rw [add_of_not_accepts hok]

theorem addAll_concat (h : CheckpointHistory) (offers : List Sample) (s : Sample) :
    h.addAll (offers ++ [s]) = ((h.addAll offers).add s.timestamp s.checkpoint).1 := by
  rw [addAll, List.foldl_append]
  rfl

/-- A history with the given bounds that holds the longest end of all samples taken in. -/
structure Retains (h : CheckpointHistory) (count maxAge : Nat) (all : List Sample) : Prop where
  maxSamples_eq : h.maxSamples = count
  maxAge_eq : h.maxAge = min (maxAge : Int) Decimal.maxInt64
  isSuffix : h.samples <:+ all
  inOrder : InOrder all
  isLongest : ∀ newest ∈ all.getLast?,
    IsLongestWithin count (ageLimit maxAge newest) h.samples all

variable {h : CheckpointHistory} {count maxAge : Nat} {all : List Sample}

theorem retains_empty (maxSamples maxAge : Nat) :
    Retains (empty maxSamples maxAge) (max 1 maxSamples) maxAge [] where
  maxSamples_eq := rfl
  maxAge_eq := rfl
  isSuffix := List.suffix_rfl
  inOrder := List.Pairwise.nil
  isLongest _ hnewest := by cases hnewest

namespace Retains

theorem newest?_eq (hr : Retains h count maxAge all) (hcount : 1 ≤ count) :
    h.newest? = all.getLast? := by
  rcases List.eq_nil_or_concat' all with rfl | ⟨front, newest, rfl⟩
  · rw [newest?, List.suffix_nil.mp hr.isSuffix]
  · exact (hr.isLongest newest List.getLast?_concat).getLast? hcount

/-- What is accepted is what comes no earlier than the last sample taken in. -/
theorem accepts_iff (hr : Retains h count maxAge all) (hcount : 1 ≤ count) (time : Int) :
    h.accepts time = true ↔ ∀ newest ∈ all.getLast?, newest.timestamp ≤ time := by
  rw [CheckpointHistory.accepts_iff, hr.newest?_eq hcount]

theorem ageBoundary_eq (hr : Retains h count maxAge all) (s : Sample) :
    h.ageBoundary s.timestamp = ageLimit maxAge s := by
  rw [ageBoundary, ageLimit, hr.maxAge_eq]

/-- **One more sample**: the history retains the longest end of the samples taken in before with the
new one. -/
theorem add (hr : Retains h count maxAge all) {s : Sample}
    (hnewest : ∀ newest ∈ all.getLast?, newest.timestamp ≤ s.timestamp) :
    Retains { h with samples := h.trim s.timestamp (h.samples ++ [s]) } count maxAge
      (all ++ [s]) := by
  have htrim : IsLongestWithin count (ageLimit maxAge s)
      (h.trim s.timestamp (h.samples ++ [s])) (h.samples ++ [s]) := by
    rw [← hr.ageBoundary_eq, ← hr.maxSamples_eq]
    exact h.isLongestWithin_trim s.timestamp (h.samples ++ [s])
  have hlongest : IsLongestWithin count (ageLimit maxAge s)
      (h.trim s.timestamp (h.samples ++ [s])) (all ++ [s]) := by
    rcases List.eq_nil_or_concat' all with rfl | ⟨front, newest, rfl⟩
    · rw [List.suffix_nil.mp hr.isSuffix] at htrim ⊢
      exact htrim
    · have hlast : newest ∈ (front ++ [newest]).getLast? := List.getLast?_concat
      exact (hr.isLongest newest hlast).concat (ageLimit_mono maxAge (hnewest newest hlast)) htrim
  refine ⟨hr.maxSamples_eq, hr.maxAge_eq, hlongest.isSuffix,
    hr.inOrder.append_singleton hnewest, fun newest hlast => ?_⟩
  rw [List.getLast?_concat] at hlast
  rw [← Option.some_inj.mp hlast]
  exact hlongest

end Retains

theorem retains_addAll (maxSamples maxAge : Nat) (offers : List Sample) :
    Retains ((empty maxSamples maxAge).addAll offers) (max 1 maxSamples) maxAge (taken offers) := by
  induction offers using List.reverseRecOn with
  | nil => exact retains_empty maxSamples maxAge
  | append_singleton offers s ih =>
      have haccepts := ih.accepts_iff (Nat.le_max_left ..) s.timestamp
      rw [addAll_concat]
      cases hok : accepts _ s.timestamp with
      | true =>
          rw [add_of_accepts hok, taken_concat_of_le (haccepts.mp hok)]
          exact ih.add (haccepts.mp hok)
      | false =>
          have holder : ¬ ∀ newest ∈ (taken offers).getLast?, newest.timestamp ≤ s.timestamp :=
            fun hall => Bool.false_ne_true (hok.symm.trans (haccepts.mpr hall))
          rw [add_of_not_accepts hok, taken_concat_of_not_le holder]
          exact ih

/-! ### What a history answers -/

theorem Retains.at?_eq_none (hr : Retains h count maxAge all) {time : Int}
    (hnewer : ∀ s ∈ h.samples, time < s.timestamp) : h.at? time = none := by
  rw [at?_eq_latest? (hr.inOrder.suffix hr.isSuffix), latest?_eq_none hnewer, Option.map_none]

theorem Retains.at?_of_retained (hr : Retains h count maxAge all) {time : Int} {s : Sample}
    {behind : List Sample} (hlast : IsLastAt all time s behind)
    (hretained : s :: behind <:+ h.samples) : h.at? time = some s.checkpoint := by
  rw [at?_eq_latest? (hr.inOrder.suffix hr.isSuffix), (hlast.of_suffix hretained).latest?_eq,
    Option.map_some]

/-- What a history with room for `count` samples holds, refuses and answers, said of all samples
that were ever taken in. -/
structure IsEndOf (h : CheckpointHistory) (count maxAge : Nat) (all : List Sample) : Prop where
  /-- It refuses what is older than the last sample taken in, and nothing else. -/
  refuses : ∀ time checkpoint,
    (h.add time checkpoint).2 = false ↔ ∃ newest ∈ all.getLast?, time < newest.timestamp
  /-- What it refuses leaves no trace. -/
  unchanged : ∀ time checkpoint, (h.add time checkpoint).2 = false → (h.add time checkpoint).1 = h
  /-- It holds an end of the samples taken in. -/
  isSuffix : h.samples <:+ all
  /-- That end is the longest one with at most `count` samples and none but the first out of age. -/
  isLongest : ∀ newest ∈ all.getLast?,
    IsLongestWithin count (ageLimit maxAge newest) h.samples all
  /-- Where all samples are newer there is no answer. -/
  none_of_newer : ∀ time, (∀ s ∈ all, time < s.timestamp) → h.at? time = none
  /-- The answer is the last sample at or before the time, as long as it is retained. -/
  some_of_retained : ∀ time s behind, IsLastAt all time s behind → s :: behind <:+ h.samples →
    h.at? time = some s.checkpoint
  /-- Once it is not retained there is no answer. -/
  none_of_lost : ∀ time s behind, IsLastAt all time s behind → ¬ s :: behind <:+ h.samples →
    h.at? time = none
  /-- From the age limit on an answer is missing only where there was no sample, or where as many
  samples as there is room for came after it. -/
  missing : ∀ newest ∈ all.getLast?, ∀ time, ageLimit maxAge newest ≤ time → h.at? time = none →
    (∀ s ∈ all, time < s.timestamp) ∨
      ∃ s behind, IsLastAt all time s behind ∧ count ≤ behind.length

/-- **A history that was trimmed after each sample is the one computed from scratch.** -/
theorem retained_from_scratch (maxSamples maxAge : Nat) (offers : List Sample) :
    IsEndOf ((empty maxSamples maxAge).addAll offers) (max 1 maxSamples) maxAge (taken offers) := by
  have hr := retains_addAll maxSamples maxAge offers
  refine
    { refuses := fun time checkpoint => ?refuses
      unchanged := fun time checkpoint hno => ?unchanged
      isSuffix := hr.isSuffix
      isLongest := hr.isLongest
      none_of_newer := fun time hnewer =>
        hr.at?_eq_none fun s hs => hnewer s (hr.isSuffix.subset hs)
      some_of_retained := fun time s behind hlast hretained =>
        hr.at?_of_retained hlast hretained
      none_of_lost := fun time s behind hlast hlost =>
        hr.at?_eq_none (hlast.newer hr.isSuffix hlost)
      missing := fun newest hnewest time hlimit hnone => ?missing }
  case refuses =>
    rw [snd_add, ← Bool.not_eq_true, hr.accepts_iff (Nat.le_max_left ..)]
    simp
  case unchanged =>
    rw [snd_add] at hno
    rw [add_of_not_accepts hno]
  case missing =>
    rcases newer_or_isLastAt (taken offers) time with hnewer | ⟨s, behind, hlast⟩
    · exact Or.inl hnewer
    · refine Or.inr ⟨s, behind, hlast, hlast.count_le (hr.isLongest newest hnewest) hlimit ?_⟩
      intro hretained
      rw [hr.at?_of_retained hlast hretained] at hnone
      cases hnone

end CheckpointHistory

end ShardKeeper
