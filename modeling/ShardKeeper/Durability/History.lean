import ShardKeeper.Text.Decimal

/-!
# The checkpoint history

Which local checkpoint was durable at a given time, from samples taken in the order of time and kept
within bounds on their number and age.

## Main definitions

* `Sample` — a checkpoint that was durable at a time
* `CheckpointHistory.add` — one more sample, unless it is older than the newest
* `CheckpointHistory.at?` — the checkpoint of the latest sample at or before a time

## Design notes

The oldest samples go first. One sample at or before the age limit stays, so a look-up there still
finds an answer.
-/

namespace ShardKeeper

/-- The local checkpoint durable at a time in milliseconds. -/
structure Sample where
  timestamp : Int
  checkpoint : Int
deriving DecidableEq, Inhabited

/-- The samples kept, oldest first, and the bounds on them. -/
structure CheckpointHistory where
  samples : List Sample
  maxSamples : Nat
  /-- In milliseconds. -/
  maxAge : Int
deriving DecidableEq

namespace CheckpointHistory

/-- No samples, at most `maxSamples` of them (but room for one), and none much older than `maxAge`
milliseconds. -/
def empty (maxSamples maxAge : Nat) : CheckpointHistory :=
  ⟨[], max 1 maxSamples, min maxAge Decimal.maxInt64⟩

/-- The latest sample. -/
def newest? (h : CheckpointHistory) : Option Sample := h.samples.getLast?

/-- The samples without the oldest ones beyond a number. -/
def keepLast (count : Nat) (samples : List Sample) : List Sample :=
  samples.drop (samples.length - count)

/-- The samples without the oldest ones, as long as the next one is no newer than `boundary`. -/
def dropAged (boundary : Int) : List Sample → List Sample
  | a :: b :: rest =>
    if b.timestamp ≤ boundary then dropAged boundary (b :: rest) else a :: b :: rest
  | samples => samples

/-- The time at which samples are out of age, seen from a newest sample at `timestamp`. -/
def ageBoundary (h : CheckpointHistory) (timestamp : Int) : Int :=
  max Decimal.minInt64 (min Decimal.maxInt64 (timestamp - h.maxAge))

/-- The samples within the bounds, seen from a newest sample at `timestamp`. -/
def trim (h : CheckpointHistory) (timestamp : Int) (samples : List Sample) : List Sample :=
  dropAged (h.ageBoundary timestamp) (keepLast h.maxSamples samples)

theorem keepLast_length (count : Nat) (samples : List Sample) :
    (keepLast count samples).length = min count samples.length := by
  simp only [keepLast, List.length_drop]
  omega

theorem dropAged_suffix (boundary : Int) (samples : List Sample) :
    dropAged boundary samples <:+ samples := by
  fun_induction dropAged boundary samples with
  | case1 a b rest _ ih => exact ih.trans (List.suffix_cons a _)
  | case2 => exact List.suffix_refl _
  | case3 => exact List.suffix_refl _

/-- Trimming drops samples from the old end only. -/
theorem trim_suffix (h : CheckpointHistory) (timestamp : Int)
    (samples : List Sample) : h.trim timestamp samples <:+ samples :=
  (dropAged_suffix _ _).trans (List.drop_suffix _ _)

/-- Whether a sample taken at `timestamp` may follow those in the history. -/
def accepts (h : CheckpointHistory) (timestamp : Int) : Bool :=
  h.newest?.all fun s => s.timestamp ≤ timestamp

/-- The history with one more sample, and whether it was taken in. A sample older than the newest
changes nothing. -/
def add (h : CheckpointHistory) (timestamp checkpoint : Int) : CheckpointHistory × Bool :=
  if h.accepts timestamp then
    ({ h with samples := h.trim timestamp (h.samples ++ [⟨timestamp, checkpoint⟩]) }, true)
  else (h, false)

/-- The checkpoint of the latest sample at or before a time, or nothing when all are newer. -/
def at? (h : CheckpointHistory) (timestamp : Int) : Option Int :=
  (h.samples.takeWhile fun s => s.timestamp ≤ timestamp).getLast?.map Sample.checkpoint

end CheckpointHistory

end ShardKeeper
