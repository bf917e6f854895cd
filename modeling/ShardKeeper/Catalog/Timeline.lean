import ShardKeeper.Catalog.Wait

/-!
# Timelines

What happens around an activity, laid down in advance.

## Main definitions

* `Occurrence`, `Timeline` — what happens, and when
* `Timeline.surroundings` — the catalog at each instant, and the instant of cancellation
-/

namespace ShardKeeper

/-- Something that happens around an activity. -/
inductive Occurrence where
  /-- A catalog takes the place of the one before. -/
  | publish (catalog : Catalog)
  /-- The catalog is dropped. -/
  | clear
  /-- The activity is cancelled. -/
  | cancel
deriving DecidableEq

/-- What happens, in the order of time. -/
abbrev Timeline := List (Instant × Occurrence)

namespace Timeline

/-- The latest catalog after an occurrence. -/
def next (catalog : Option Catalog) : Occurrence → Option Catalog
  | .publish c => some c
  | .clear => none
  | .cancel => catalog

/-- The latest catalog at an instant. -/
def catalogAt (t : Timeline) (now : Instant) : Option Catalog :=
  (t.filter fun e => e.1 ≤ now).foldl (fun c e => next c e.2) none

/-- The instant of the first cancellation. -/
def cancelAt? (t : Timeline) : Option Instant := (t.find? fun e => e.2 = .cancel).map (·.1)

/-- What a timeline means for an activity that begins at the instant zero. -/
def surroundings (t : Timeline) : Surroundings := ⟨t.catalogAt, t.cancelAt?⟩

end Timeline

end ShardKeeper
