import Mathlib.Data.List.Basic
import ShardKeeper.Timed

/-!
# Worlds left to themselves

A world goes from one step to the next: something is done to it from outside, one
of its activities acts, or time passes up to the next instant at which one can.

## Main results

* `Timed.run_succ_cases` — the steps.
* `Timed.run_keeps` — what all of them keep.
* `Timed.run_ends` — a world that makes progress with each step comes to its end.
* `Timed.exists_earliest?` — no activity has to wait for longer than it asked for.
-/

namespace ShardKeeper.Timed

variable {σ : Type} [Timed σ] {goal : σ → Bool} {stop : Option Instant} {s : σ}

theorem earliest?_le {instants : List (Option Instant)} {i t : Instant} (hi : some i ∈ instants)
    (h : earliest? instants = some t) : t ≤ i :=
  (List.min?_eq_some_iff.mp h).2 i (List.mem_filterMap.mpr ⟨some i, hi, rfl⟩)

theorem exists_earliest? {instants : List (Option Instant)} {i : Instant} (hi : some i ∈ instants) :
    ∃ t, earliest? instants = some t ∧ t ≤ i := by
  cases h : earliest? instants with
  | some t => exact ⟨t, rfl, earliest?_le hi h⟩
  | none =>
      have hmem : i ∈ instants.filterMap id := List.mem_filterMap.mpr ⟨some i, hi, rfl⟩
      rw [List.min?_eq_none_iff.mp h] at hmem
      cases hmem

theorem mem_of_earliest? {instants : List (Option Instant)} {t : Instant}
    (h : earliest? instants = some t) : some t ∈ instants := by
  obtain ⟨i, hi, rfl⟩ := List.mem_filterMap.mp (List.min?_eq_some_iff.mp h).1
  exact hi

theorem run_of_goal {limit : Nat} {changes : List (Change σ)} (hgoal : goal s = true) :
    run goal stop limit changes s = s := by
  cases limit with
  | zero => rfl
  | succ limit => cases changes <;> rw [run, if_pos hgoal]

theorem run_of_stop {instant : Instant} {limit : Nat} {changes : List (Change σ)}
    (hstop : instant ≤ now s) : run goal (some instant) limit changes s = s := by
  cases limit with
  | zero => rfl
  | succ limit =>
      have hany : (some instant).any (· ≤ now s) = true := decide_eq_true hstop
      cases changes <;> rw [run, if_pos hany, ite_self]

/-- **One step of a world**: a change from outside, an activity, the passing of time, or nothing any
more. -/
theorem run_succ_cases (goal : σ → Bool) (stop : Option Instant) (limit : Nat)
    (changes : List (Change σ)) (s : σ) :
    (∃ c ∈ changes, ∃ rest ⊆ changes,
        run goal stop (limit + 1) changes s = run goal stop limit rest (c.apply s)) ∨
      (∃ t, act? s = some t ∧
        run goal stop (limit + 1) changes s = run goal stop limit changes t) ∨
      (act? s = none ∧ ∃ instants t, due? s ∈ instants ∧ earliest? instants = some t ∧
        run goal stop (limit + 1) changes s = run goal stop limit changes (waitUntil s t)) ∨
      run goal stop (limit + 1) changes s = s := by
  by_cases hgoal : goal s = true
  · exact .inr (.inr (.inr (run_of_goal hgoal)))
  by_cases hstop : stop.any (· ≤ now s) = true
  · refine .inr (.inr (.inr ?_))
    cases changes <;> rw [run, if_neg hgoal, if_pos hstop]
  cases changes with
  | cons c rest =>
      rw [run, if_neg hgoal, if_neg hstop]
      split
      · exact .inl ⟨c, List.mem_cons_self, rest, List.subset_cons_self c rest, rfl⟩
      · split
        · rename_i t hact
          exact .inr (.inl ⟨t, hact, rfl⟩)
        · rename_i hact
          split
          · rename_i t ht
            exact .inr (.inr (.inl ⟨hact, _, t, List.mem_cons_self, ht, rfl⟩))
          · exact .inr (.inr (.inr rfl))
  | nil =>
      rw [run, if_neg hgoal, if_neg hstop]
      split
      · rename_i t hact
        exact .inr (.inl ⟨t, hact, rfl⟩)
      · rename_i hact
        split
        · rename_i t ht
          exact .inr (.inr (.inl ⟨hact, _, t, List.mem_cons_self, ht, rfl⟩))
        · exact .inr (.inr (.inr rfl))

/-- **What holds of a world that is left to itself**: whatever its activities, the passing of time
and the changes from outside keep. -/
theorem run_keeps {P : σ → Prop} (hact : ∀ s t, P s → act? s = some t → P t)
    (hwait : ∀ s t, P s → P (waitUntil s t)) (goal : σ → Bool) (stop : Option Instant)
    (limit : Nat) {changes : List (Change σ)} (hchanges : ∀ c ∈ changes, ∀ s, P s → P (c.apply s))
    {s : σ} (hs : P s) : P (run goal stop limit changes s) := by
  induction limit generalizing changes s with
  | zero => exact hs
  | succ limit ih =>
      rcases run_succ_cases goal stop limit changes s with
        ⟨c, hc, rest, hrest, heq⟩ | ⟨t, ht, heq⟩ | ⟨-, instants, t, -, -, heq⟩ | heq
      · rw [heq]
        exact ih (fun d hd => hchanges d (hrest hd)) (hchanges c hc s hs)
      · rw [heq]
        exact ih hchanges (hact s t hs ht)
      · rw [heq]
        exact ih hchanges (hwait s t hs)
      · rwa [heq]

/-- **A world that makes progress with each step** comes to its end: it reaches the goal, or the
instant at which it is stopped. -/
theorem run_ends {P : σ → Prop} {rank : σ → Nat} {instant : Instant}
    (hact : ∀ s t, P s → act? s = some t → P t ∧ rank t < rank s)
    (hwait : ∀ s t, P s → goal s = false → act? s = none → now s < instant →
      earliest? [due? s, some instant] = some t →
        P (waitUntil s t) ∧ (instant ≤ now (waitUntil s t) ∨ rank (waitUntil s t) < rank s))
    {limit : Nat} {s : σ} (hs : P s) (hlimit : rank s < limit) :
    let r := run goal (some instant) limit [] s
    P r ∧ (goal r = true ∨ instant ≤ now r) := by
  dsimp only
  induction limit generalizing s with
  | zero => exact absurd hlimit (Nat.not_lt_zero _)
  | succ limit ih =>
      have hrest := Nat.le_of_lt_succ hlimit
      cases hgoal : goal s with
      | true =>
          rw [run_of_goal hgoal]
          exact ⟨hs, .inl hgoal⟩
      | false =>
          rcases Nat.lt_or_ge (now s) instant with hlt | hstop
          · have hany : ¬ (some instant).any (· ≤ now s) = true := by
              simpa using hlt
            rw [run, if_neg (Bool.eq_false_iff.mp hgoal), if_neg hany]
            split
            · rename_i t ht
              obtain ⟨hP, hrank⟩ := hact s t hs ht
              exact ih hP (Nat.lt_of_lt_of_le hrank hrest)
            · rename_i hnone
              have hmem : some instant ∈ [due? s, some instant] :=
                List.mem_cons_of_mem _ List.mem_cons_self
              obtain ⟨t, ht, -⟩ := exists_earliest? hmem
              obtain ⟨hP, hstop | hrank⟩ := hwait s t hs hgoal hnone hlt ht
              · rw [ht]
                dsimp only
                rw [run_of_stop hstop]
                exact ⟨hP, .inr hstop⟩
              · rw [ht]
                exact ih hP (Nat.lt_of_lt_of_le hrank hrest)
          · rw [run_of_stop hstop]
            exact ⟨hs, .inr hstop⟩

end ShardKeeper.Timed
