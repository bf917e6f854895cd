import Mathlib.Algebra.Order.BigOperators.Group.List
import ShardKeeper.Proofs.Searcher.Attempts

/-!
# How long each pause is

A pause is multiplied after it was cut to the longest one, and a product that is
too long for a duration is cut once more.  Neither cut shows: each pause is what
the power of the factor says, or the longest one if that is shorter.

## Main definitions

* `BackoffPolicy.Yields` — what is taken from the pauses to come, up to the last one.

## Main results

* `BackoffPolicy.yields_iff` — what is taken from the pauses of a policy are its delays.
* `BackoffPolicy.nanos_iterate_grow` — the pause after some others.
* `BackoffPolicy.delays_by_powers` — how many delays there are, and how long each of them is.
-/

namespace ShardKeeper

namespace BackoffPolicy

variable {p : BackoffPolicy} {s t : Pauses} {d : Duration} {ds : List Duration}

/-! ### Taking pauses -/

/-- What is taken from the pauses to come, one after the other, until there are no more. -/
inductive Yields (p : BackoffPolicy) : Pauses → List Duration → Prop where
  | last {s : Pauses} (h : p.take? s = none) : Yields p s []
  | next {s t : Pauses} {d : Duration} {ds : List Duration} (h : p.take? s = some (d, t))
      (hrest : Yields p t ds) : Yields p s (d :: ds)

theorem yields_delaysFrom (p : BackoffPolicy) (next : Duration) (count : ℕ) :
    p.Yields ⟨next, count⟩ (p.delaysFrom next count) := by
  induction count generalizing next with
  | zero => exact .last rfl
  | succ count ih => exact .next rfl (ih (p.grow next))

/-- There is one way to take pauses. -/
theorem Yields.unique {ds' : List Duration} (h : p.Yields s ds) (h' : p.Yields s ds') :
    ds = ds' := by
  induction h generalizing ds' with
  | last hnone =>
      cases h' with
      | last => rfl
      | next hsome => cases hnone.symm.trans hsome
  | next hsome _ ih =>
      cases h' with
      | last hnone => cases hnone.symm.trans hsome
      | next hsome' hrest =>
          obtain ⟨rfl, rfl⟩ := Prod.mk.inj (Option.some.inj (hsome.symm.trans hsome'))
          rw [ih hrest]

/-- **What is taken from the pauses of a policy are its delays**, and nothing else. -/
theorem yields_iff : p.Yields p.pauses ds ↔ ds = p.delays := by
  have hdelays : p.Yields p.pauses p.delays := yields_delaysFrom p _ _
  constructor
  · intro h
    exact h.unique hdelays
  · rintro rfl
    exact hdelays

/-! ### Powers of the factor -/

/-- No product is cut because it is too long for a duration: the longest pause is none that is. -/
theorem nanos_grow (p : BackoffPolicy) (d : Duration) :
    (p.grow d).nanos = min p.maxDelay.nanos (d.nanos * p.multiplier) := by
  have hfits := p.maxDelay.nanos_le
  rw [grow, Duration.nanos_shorter, Duration.nanos_scale]
  omega

/-- Cutting a number before it is multiplied makes no difference, if the product is cut again. -/
theorem min_min_mul (cap n factor : ℕ) : min cap (min cap n * factor) = min cap (n * factor) := by
  rcases Nat.eq_zero_or_pos factor with rfl | hfactor
  · rfl
  · have hcap : cap ≤ cap * factor := Nat.le_mul_of_pos_right cap hfactor
    rw [← Nat.mul_min_mul_right]
    omega

/-- **The pause after `i` others.** -/
theorem nanos_iterate_grow (p : BackoffPolicy) (i : ℕ) :
    (p.grow^[i] p.pauses.next).nanos =
      min p.maxDelay.nanos (p.base.nanos * p.multiplier ^ i) := by
  induction i with
  | zero =>
      show (p.base.shorter p.maxDelay).nanos = _
      rw [Duration.nanos_shorter, Nat.pow_zero, Nat.mul_one, Nat.min_comm]
  | succ i ih =>
      rw [Function.iterate_succ_apply', nanos_grow, ih, min_min_mul, Nat.pow_succ, Nat.mul_assoc]

theorem map_nanos_delays (p : BackoffPolicy) :
    p.delays.map Duration.nanos = (List.range (p.maxAttempts - 1)).map fun i =>
      min p.maxDelay.nanos (p.base.nanos * p.multiplier ^ i) := by
  refine List.ext_getElem? fun i => ?_
  have hcount : p.pauses.remaining = p.maxAttempts - 1 := rfl
  rw [List.getElem?_map, List.getElem?_map, delays, getElem?_delaysFrom, hcount]
  by_cases hi : i < p.maxAttempts - 1
  · rw [if_pos hi, List.getElem?_range hi, Option.map_some, Option.map_some, nanos_iterate_grow]
  · rw [if_neg hi, List.getElem?_eq_none (by simpa using hi)]
    rfl

/-! ### All delays -/

/-- **The delays of a policy**, whatever its numbers are:

* they are what is taken from its pauses, until there are no more;
* there is one for each attempt but the first, and delay `i`, counted from zero, is the first pause
  times the power `i` of the factor, or the longest pause if that is shorter;
* if the factor is not zero, no delay is shorter than one before it;
* all of them together are no longer than the longest pause taken as often. -/
theorem delays_by_powers (p : BackoffPolicy) :
    (∀ ds, p.Yields p.pauses ds ↔ ds = p.delays) ∧
    p.delays.length = p.maxAttempts - 1 ∧
    p.delays.map Duration.nanos = (List.range (p.maxAttempts - 1)).map (fun i =>
      min p.maxDelay.nanos (p.base.nanos * p.multiplier ^ i)) ∧
    (1 ≤ p.multiplier → p.delays.Pairwise fun a b => a.nanos ≤ b.nanos) ∧
    (p.delays.map Duration.nanos).sum ≤ p.delays.length * p.maxDelay.nanos := by
  have hlength : p.delays.length = p.maxAttempts - 1 := length_delaysFrom p _ _
  refine ⟨fun ds => yields_iff, hlength, map_nanos_delays p, pairwise_delays, ?_⟩
  have hcap : ∀ n ∈ p.delays.map Duration.nanos, n ≤ p.maxDelay.nanos := by
    intro n hn
    rw [map_nanos_delays] at hn
    obtain ⟨i, -, rfl⟩ := List.mem_map.mp hn
    exact Nat.min_le_left ..
  have hsum := List.sum_le_card_nsmul _ _ hcap
  rwa [List.length_map, smul_eq_mul] at hsum

/-- The greatest numbers there are: the second delay would be longer than any duration. -/
theorem delays_by_powers_at_the_end :
    let p : BackoffPolicy := ⟨.longest, 4294967295, 3, .longest⟩
    1 ≤ p.multiplier ∧ Duration.maxNanos < p.base.nanos * p.multiplier ^ 1 ∧
      p.delays.map Duration.nanos = [Duration.maxNanos, Duration.maxNanos] ∧
      p.delays.Pairwise fun a b => a.nanos ≤ b.nanos := by
  intro p
  obtain ⟨-, -, hpowers, hordered, -⟩ := delays_by_powers p
  refine ⟨by decide, by decide, ?_, hordered (by decide)⟩
  rw [hpowers]
  decide

end BackoffPolicy

end ShardKeeper
