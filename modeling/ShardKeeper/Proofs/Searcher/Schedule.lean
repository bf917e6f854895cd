import Mathlib.Data.ENat.Lattice
import Mathlib.Tactic.Ring
import ShardKeeper.Searcher.Retry

/-!
# The schedule of a repeated call

Which attempts a call makes and when is laid down by the answers, the time they
take and the pauses of the policy.  A cancellation only cuts the schedule short.

## Main definitions

* `Retry.firstSettled` — the first attempt whose answer is not retryable.
* `Retry.began`, `Retry.answered` — the instants of an attempt.
* `Retry.GoesOn`, `Retry.IsLast` — another attempt follows, or none.

## Main results

* `Retry.run_eq` — a call makes its attempts one after the other, up to the last one.
* `Retry.calls_of_cancelled` — a cancellation leaves out those that begin after it.
* `Retry.run_follows_schedule` — how many these are, when they begin and how the call ends.
-/

namespace ShardKeeper

namespace BackoffPolicy

variable {policy : BackoffPolicy} {i : ℕ}

/-- The pauses still to come after the first `i` of them. -/
def pausesAfter (policy : BackoffPolicy) (i : ℕ) : Pauses :=
  ⟨policy.grow^[i] policy.pauses.next, policy.pauses.remaining - i⟩

theorem length_delaysFrom (policy : BackoffPolicy) (next : Duration) (count : ℕ) :
    (policy.delaysFrom next count).length = count := by
  induction count generalizing next with
  | zero => rfl
  | succ count ih => rw [delaysFrom, List.length_cons, ih]

/-- There is a pause between any two attempts and no other. -/
theorem length_delays (policy : BackoffPolicy) :
    policy.delays.length + 1 = max 1 policy.maxAttempts := by
  rw [delays, length_delaysFrom]
  show policy.maxAttempts - 1 + 1 = _
  omega

theorem getElem?_delaysFrom (policy : BackoffPolicy) (next : Duration) (count i : ℕ) :
    (policy.delaysFrom next count)[i]? =
      if i < count then some (policy.grow^[i] next) else none := by
  induction count generalizing next i with
  | zero => rfl
  | succ count ih =>
      cases i with
      | zero => rfl
      | succ i =>
          rw [delaysFrom, List.getElem?_cons_succ, ih, Function.iterate_succ_apply]
          simp only [Nat.add_lt_add_iff_right]

/-- **Taking the next pause takes it from the list of delays.** -/
theorem take?_pausesAfter (policy : BackoffPolicy) (i : ℕ) :
    policy.take? (policy.pausesAfter i) =
      policy.delays[i]?.map fun d => (d, policy.pausesAfter (i + 1)) := by
  rw [delays, getElem?_delaysFrom, take?, pausesAfter]
  dsimp only
  by_cases hi : i < policy.pauses.remaining
  · obtain ⟨left, hleft⟩ : ∃ left, policy.pauses.remaining - i = left + 1 :=
      ⟨policy.pauses.remaining - i - 1, by omega⟩
    rw [if_pos hi, hleft, pausesAfter, Function.iterate_succ_apply',
      show policy.pauses.remaining - (i + 1) = left by omega]
    rfl
  · rw [if_neg hi, show policy.pauses.remaining - i = 0 by omega]
    rfl

end BackoffPolicy

/-- How a call ends whose last answer has a verdict, if it is not cancelled. -/
def Verdict.outcome : Verdict → CallOutcome
  | .success => .success
  | .fatal => .fatal
  | .retryable => .exhausted

namespace Retry

variable {ρ : Type} (policy : BackoffPolicy) (answers : Answers ρ)

/-- The instant at which attempt `i` begins, counted from zero, when every answer before it was
retryable. -/
def began : ℕ → Instant
  | 0 => 0
  | i + 1 => began i + (answers i).2 + (policy.delays[i]?).elim 0 Duration.pauseNanos

/-- The instant of the answer to attempt `i`. -/
def answered (i : ℕ) : Instant := began policy answers i + (answers i).2

variable {policy answers} in
theorem began_succ {i : ℕ} {d : Duration} (hd : policy.delays[i]? = some d) :
    began policy answers (i + 1) = answered policy answers i + d.pauseNanos := by
  rw [began, hd]
  rfl

/-- The time of an answer is made up of the time that the answers took and of the pauses between
them. -/
theorem answered_eq_sum (last : ℕ) :
    answered policy answers last = ((List.range (last + 1)).map fun i => (answers i).2).sum +
      ((policy.delays.take last).map Duration.pauseNanos).sum := by
  induction last with
  | zero => simp [answered, began]
  | succ last ih =>
      have hpause : ((policy.delays[last]?).toList.map Duration.pauseNanos).sum =
          (policy.delays[last]?).elim 0 Duration.pauseNanos := by
        cases policy.delays[last]? <;> simp
      rw [answered, began, ← answered, ih, List.range_succ (n := last + 1), List.take_add_one,
        List.map_append, List.map_append, List.sum_append, List.sum_append, hpause]
      simp only [List.map_cons, List.map_nil, List.sum_cons, List.sum_nil]
      ring

variable {policy answers} in
/-- A cancellation cuts the attempts after the first where they would begin too late. -/
theorem calls_cut {c : Instant} {last lastInTime : ℕ} (hle : lastInTime ≤ last)
    (hearly : ∀ i < lastInTime, began policy answers (i + 1) < c)
    (hlate : lastInTime < last → c ≤ began policy answers (lastInTime + 1)) :
    (List.range (lastInTime + 1)).map (began policy answers) =
      ((List.range (last + 1)).map (began policy answers)).take 1 ++
        (((List.range (last + 1)).map (began policy answers)).drop 1).takeWhile (· < c) := by
  obtain ⟨rest, rfl⟩ := Nat.exists_eq_add_of_le hle
  have hrange : ∀ count, List.range (count + 1) = 0 :: List.range' 1 count := fun count => by
    rw [List.range_eq_range', List.range'_succ]
  have hsplit : List.range' 1 (lastInTime + rest) =
      List.range' 1 lastInTime ++ List.range' (1 + lastInTime) rest := by
    rw [← List.range'_append_1]
  have hall : ∀ t ∈ (List.range' 1 lastInTime).map (began policy answers),
      decide (t < c) = true := by
    intro t ht
    obtain ⟨i, hi, rfl⟩ := List.mem_map.mp ht
    obtain ⟨j, hj, rfl⟩ := List.mem_range'.mp hi
    rw [decide_eq_true_eq, Nat.one_mul, Nat.add_comm]
    exact hearly j hj
  have hnone : ((List.range' (1 + lastInTime) rest).map (began policy answers)).takeWhile
      (fun t => decide (t < c)) = [] := by
    cases rest with
    | zero => rfl
    | succ rest =>
        rw [List.range'_succ, List.map_cons, List.takeWhile_cons_of_neg]
        rw [decide_eq_true_eq, Nat.not_lt, Nat.add_comm 1]
        exact hlate (by omega)
  rw [hrange, hrange, List.map_cons, List.map_cons, List.take_succ_cons, List.take_zero,
    List.drop_succ_cons, List.drop_zero, hsplit, List.map_append,
    List.takeWhile_append_of_pos hall, hnone, List.append_nil]
  rfl

variable [Response ρ] (cancelAt : Option Instant)

/-- The first attempt whose answer is not retryable, counted from one; none when all are. -/
noncomputable def firstSettled : ℕ∞ :=
  sInf {k | ∃ i : ℕ, k = (i + 1 : ℕ) ∧ Response.verdict (answers i).1 ≠ .retryable}

/-- After attempt `i` there is another one: its answer is retryable, more attempts are allowed, and
the call is not cancelled before that begins. -/
structure GoesOn (i : ℕ) : Prop where
  retryable : Response.verdict (answers i).1 = .retryable
  allowed : i < policy.delays.length
  inTime : ∀ c ∈ cancelAt, began policy answers (i + 1) < c

instance : DecidablePred (GoesOn policy answers cancelAt) := fun i =>
  decidable_of_iff (Response.verdict (answers i).1 = .retryable ∧ i < policy.delays.length ∧
      ∀ c ∈ cancelAt, began policy answers (i + 1) < c)
    ⟨fun ⟨h₁, h₂, h₃⟩ => ⟨h₁, h₂, h₃⟩, fun h => ⟨h.1, h.2, h.3⟩⟩

/-- The attempt that the call does not go on after. -/
structure IsLast (last : ℕ) : Prop where
  goes : ∀ i < last, GoesOn policy answers cancelAt i
  ends : ¬ GoesOn policy answers cancelAt last

/-- How a call ends that does not go on after attempt `i`. -/
def endAt (i : ℕ) : CallResult ρ :=
  match Response.verdict (answers i).1 with
  | .success => ⟨(answers i).1, .success, i + 1, answered policy answers i⟩
  | .fatal => ⟨(answers i).1, .fatal, i + 1, answered policy answers i⟩
  | .retryable =>
    if i < policy.delays.length then
      ⟨(answers i).1, .interrupted, i + 1,
        cancelAt.elim 0 fun c => max c (answered policy answers i)⟩
    else ⟨(answers i).1, .exhausted, i + 1, answered policy answers i⟩

/-! ### One attempt -/

/-- A call before attempt `i`. -/
def before (i : ℕ) : Retry := ⟨policy, 0, i, policy.pausesAfter i⟩

/-- The verdict on an answer decides, and for a retryable one whether there is another pause. -/
theorem respond_before (i : ℕ) (now : Instant) (response : ρ) :
    (before policy i).respond now response =
      match Response.verdict response with
      | .success => .finish ⟨response, .success, i + 1, now⟩
      | .fatal => .finish ⟨response, .fatal, i + 1, now⟩
      | .retryable =>
        match policy.delays[i]? with
        | none => .finish ⟨response, .exhausted, i + 1, now⟩
        | some d => .pause d (before policy (i + 1)) := by
  rw [respond, before]
  dsimp only
  rw [BackoffPolicy.take?_pausesAfter]
  cases Response.verdict response with
  | success => rfl
  | fatal => rfl
  | retryable => cases policy.delays[i]? <;> rfl

variable {policy answers cancelAt}

theorem runFrom_of_finish {r : Retry} {now : Instant} {result : CallResult ρ}
    (h : r.respond (now + (answers r.attempts).2) (answers r.attempts).1 = .finish result) :
    runFrom answers cancelAt r now = ⟨[now], result⟩ := by
  rw [runFrom]
  dsimp only
  split
  · rename_i hfinish
    rw [h] at hfinish
    cases hfinish
    rfl
  · rename_i hpause
    rw [h] at hpause
    cases hpause

/-- A call that is cancelled before the pause is over ends with the answer it has. -/
theorem runFrom_of_cancelled {r next : Retry} {now : Instant} {d : Duration} {c : Instant}
    (h : r.respond (now + (answers r.attempts).2) (answers r.attempts).1 = .pause d next)
    (hcancel : cancelAt = some c) (hlate : c ≤ now + (answers r.attempts).2 + d.pauseNanos) :
    runFrom answers cancelAt r now =
      ⟨[now], next.finish (max c (now + (answers r.attempts).2)) (answers r.attempts).1
        .interrupted⟩ := by
  have hfilter : cancelAt.filter (· ≤ now + (answers r.attempts).2 + d.pauseNanos) = some c := by
    rw [hcancel, Option.filter_some_pos (by simpa using hlate)]
  rw [runFrom]
  dsimp only
  split
  · rename_i hfinish
    rw [h] at hfinish
    cases hfinish
  · rename_i hpause
    rw [h] at hpause
    cases hpause
    rw [hfilter]

/-- A call that is not cancelled by then goes on after the pause. -/
theorem runFrom_of_resumed {r next : Retry} {now : Instant} {d : Duration}
    (h : r.respond (now + (answers r.attempts).2) (answers r.attempts).1 = .pause d next)
    (htime : ∀ c ∈ cancelAt, now + (answers r.attempts).2 + d.pauseNanos < c) :
    runFrom answers cancelAt r now =
      let rest := runFrom answers cancelAt next (now + (answers r.attempts).2 + d.pauseNanos)
      { rest with calls := now :: rest.calls } := by
  have hfilter : cancelAt.filter (· ≤ now + (answers r.attempts).2 + d.pauseNanos) = none := by
    rw [Option.filter_eq_none_iff]
    exact fun c hc hle => absurd (of_decide_eq_true hle) (Nat.not_le.mpr (htime c hc))
  rw [runFrom]
  dsimp only
  split
  · rename_i hfinish
    rw [h] at hfinish
    cases hfinish
  · rename_i hpause
    rw [h] at hpause
    cases hpause
    rw [hfilter]

/-- **An attempt after which the call does not go on** is its last. -/
theorem runFrom_of_not_goesOn {i : ℕ} (h : ¬ GoesOn policy answers cancelAt i) :
    runFrom answers cancelAt (before policy i) (began policy answers i) =
      ⟨[began policy answers i], endAt policy answers cancelAt i⟩ := by
  have hrespond := respond_before policy i (answered policy answers i) (answers i).1
  rw [endAt]
  cases hverdict : Response.verdict (answers i).1 with
  | success =>
      rw [hverdict] at hrespond
      exact runFrom_of_finish hrespond
  | fatal =>
      rw [hverdict] at hrespond
      exact runFrom_of_finish hrespond
  | retryable =>
      rw [hverdict] at hrespond
      dsimp only at hrespond ⊢
      cases hdelay : policy.delays[i]? with
      | none =>
          rw [hdelay] at hrespond
          rw [if_neg (Nat.not_lt.mpr (List.getElem?_eq_none_iff.mp hdelay))]
          exact runFrom_of_finish hrespond
      | some d =>
          rw [hdelay] at hrespond
          have hallowed : i < policy.delays.length := (List.getElem?_eq_some_iff.mp hdelay).1
          -- nothing but a cancellation can keep the call from going on
          obtain ⟨c, hcancel, hlate⟩ :
              ∃ c, cancelAt = some c ∧ c ≤ answered policy answers i + d.pauseNanos := by
            by_contra hno
            push Not at hno
            exact h ⟨hverdict, hallowed, by rwa [began_succ hdelay]⟩
          rw [if_pos hallowed, runFrom_of_cancelled hrespond hcancel hlate, hcancel]
          rfl

/-- **An attempt after which the call goes on** is followed by the next one. -/
theorem runFrom_of_goesOn {i : ℕ} (h : GoesOn policy answers cancelAt i) :
    runFrom answers cancelAt (before policy i) (began policy answers i) =
      let rest := runFrom answers cancelAt (before policy (i + 1)) (began policy answers (i + 1))
      { rest with calls := began policy answers i :: rest.calls } := by
  have hrespond := respond_before policy i (answered policy answers i) (answers i).1
  obtain ⟨d, hdelay⟩ : ∃ d, policy.delays[i]? = some d := ⟨_, List.getElem?_eq_getElem h.allowed⟩
  rw [h.retryable, hdelay] at hrespond
  have htime : ∀ c ∈ cancelAt, answered policy answers i + d.pauseNanos < c := by
    rw [← began_succ hdelay]
    exact h.inTime
  rw [runFrom_of_resumed hrespond htime, began_succ hdelay]
  rfl

/-! ### The whole call -/

variable {last : ℕ}

/-- **A call makes its attempts one after the other**, up to the last one. -/
theorem run_eq (h : IsLast policy answers cancelAt last) :
    run policy answers cancelAt =
      ⟨(List.range (last + 1)).map (began policy answers), endAt policy answers cancelAt last⟩ := by
  -- backwards from the last attempt: `count` attempts are still to come after attempt `i`
  have hfrom : ∀ count i, i + count = last →
      runFrom answers cancelAt (before policy i) (began policy answers i) =
        ⟨(List.range' i (count + 1)).map (began policy answers),
          endAt policy answers cancelAt last⟩ := by
    intro count
    induction count with
    | zero =>
        rintro i rfl
        exact runFrom_of_not_goesOn h.ends
    | succ count ih =>
        intro i hi
        have hnext := runFrom_of_goesOn (h.goes i (by omega))
        rw [hnext, ih (i + 1) (by omega), List.range'_succ (n := count + 1)]
        rfl
  rw [List.range_eq_range']
  exact hfrom last 0 (Nat.zero_add last)

theorem length_calls (h : IsLast policy answers cancelAt last) :
    (run policy answers cancelAt).calls.length = last + 1 := by
  rw [run_eq h, List.length_map, List.length_range]

theorem getElem?_calls (h : IsLast policy answers cancelAt last) {i : ℕ} (hi : i ≤ last) :
    (run policy answers cancelAt).calls[i]? = some (began policy answers i) := by
  rw [run_eq h, List.getElem?_map, List.getElem?_range (Nat.lt_succ_of_le hi)]
  rfl

theorem exists_isLast (policy : BackoffPolicy) (answers : Answers ρ) (cancelAt : Option Instant) :
    ∃ last, IsLast policy answers cancelAt last := by
  have hends : ∃ i, ¬ GoesOn policy answers cancelAt i :=
    ⟨policy.delays.length, fun h => Nat.lt_irrefl _ h.allowed⟩
  refine ⟨Nat.find hends, fun i hi => ?_, Nat.find_spec hends⟩
  exact Classical.not_not.mp (Nat.find_min hends hi)

/-- A call that nobody cancels ends as the verdict on its last answer says. -/
theorem endAt_of_settled (h : IsLast policy answers none last) :
    endAt policy answers cancelAt last =
      ⟨(answers last).1, (Response.verdict (answers last).1).outcome, last + 1,
        answered policy answers last⟩ := by
  rw [endAt]
  cases hverdict : Response.verdict (answers last).1 with
  | success => rfl
  | fatal => rfl
  | retryable =>
      have hlast : ¬ last < policy.delays.length := fun hallowed =>
        h.ends ⟨hverdict, hallowed, fun c hc => absurd hc (Option.not_mem_none c)⟩
      exact if_neg hlast

theorem le_firstSettled
    (h : ∀ i < last, Response.verdict (answers i).1 = .retryable) :
    ((last + 1 : ℕ) : ℕ∞) ≤ firstSettled answers := by
  refine le_sInf ?_
  rintro k ⟨i, rfl, hi⟩
  have : last ≤ i := Nat.le_of_not_lt fun hlt => hi (h i hlt)
  exact_mod_cast Nat.succ_le_succ this

/-- The last attempt is the first one that is settled or the last one allowed. -/
theorem last_eq_min (h : IsLast policy answers none last) :
    ((last + 1 : ℕ) : ℕ∞) = min (firstSettled answers) (max 1 policy.maxAttempts : ℕ) ∧
      (Response.verdict (answers last).1 = .retryable ↔
        ((max 1 policy.maxAttempts : ℕ) : ℕ∞) < firstSettled answers) := by
  have hle := le_firstSettled fun i hi => (h.goes i hi).retryable
  have hallowed : last ≤ policy.delays.length := by
    rcases Nat.eq_zero_or_pos last with rfl | hpos
    · exact Nat.zero_le _
    · have := (h.goes (last - 1) (by omega)).allowed
      omega
  rw [← policy.length_delays]
  by_cases hverdict : Response.verdict (answers last).1 = .retryable
  -- only the bound on the attempts can end a call whose last answer is retryable
  · have hlast : last = policy.delays.length := by
      refine Nat.le_antisymm hallowed (Nat.le_of_not_lt fun hlt => h.ends ⟨hverdict, hlt, ?_⟩)
      exact fun c hc => absurd hc (Option.not_mem_none c)
    have hall : ∀ i < last + 1, Response.verdict (answers i).1 = .retryable := by
      intro i hi
      rcases Nat.lt_succ_iff_lt_or_eq.mp hi with hlt | rfl
      · exact (h.goes i hlt).retryable
      · exact hverdict
    rw [← hlast, min_eq_right hle]
    refine ⟨rfl, iff_of_true hverdict ?_⟩
    exact lt_of_lt_of_le (by exact_mod_cast Nat.lt_succ_self (last + 1)) (le_firstSettled hall)
  · have hge : firstSettled answers ≤ ((last + 1 : ℕ) : ℕ∞) := sInf_le ⟨last, rfl, hverdict⟩
    have heq := le_antisymm hle hge
    rw [← heq]
    refine ⟨(min_eq_left ?_).symm, iff_of_false hverdict ?_⟩
    · exact_mod_cast Nat.succ_le_succ hallowed
    · exact not_lt.mpr (by exact_mod_cast Nat.succ_le_succ hallowed)

/-! ### Calls that are cancelled -/

section Cancelled

variable {c : Instant} {inTime : ℕ}

/-- Whoever goes on under a cancellation goes on without one. -/
theorem inTime_le_last (h : IsLast policy answers none last)
    (hcut : IsLast policy answers (some c) inTime) : inTime ≤ last := by
  by_contra hlt
  have hlast := hcut.goes last (by omega)
  exact h.ends ⟨hlast.retryable, hlast.allowed, fun c hc => absurd hc (Option.not_mem_none c)⟩

/-- **The attempts of a cancelled call are the first and those that begin before the
cancellation.** -/
theorem calls_of_cancelled (h : IsLast policy answers none last)
    (hcut : IsLast policy answers (some c) inTime) :
    (run policy answers (some c)).calls = (run policy answers none).calls.take 1 ++
      ((run policy answers none).calls.drop 1).takeWhile (· < c) := by
  rw [run_eq h, run_eq hcut]
  refine calls_cut (inTime_le_last h hcut) (fun i hi => (hcut.goes i hi).inTime c rfl) fun hlt => ?_
  -- nothing but the cancellation keeps the call from going on
  by_contra hearly
  have hlast := h.goes inTime hlt
  refine hcut.ends ⟨hlast.retryable, hlast.allowed, fun t ht => ?_⟩
  obtain rfl := Option.some.inj ht
  exact Nat.not_le.mp hearly

/-- **A call that is cancelled in time is interrupted** with the answer that it has. -/
theorem result_of_interrupted (h : IsLast policy answers none last)
    (hcut : IsLast policy answers (some c) inTime) (hlt : inTime < last) :
    (run policy answers (some c)).result = {
      response := (answers inTime).1
      outcome := .interrupted
      attempts := inTime + 1
      elapsed := max c (answered policy answers inTime) } := by
  have hlast := h.goes inTime hlt
  rw [run_eq hcut]
  show endAt policy answers (some c) inTime = _
  rw [endAt, hlast.retryable]
  exact if_pos hlast.allowed

end Cancelled

/-! ### The schedule -/

/-- **A call follows its schedule.**  Let `n` attempts be allowed, at least one, and let `k` be the
first attempt whose answer is not retryable.  Without a cancellation

* a call makes the lesser of `k` and `n` attempts, the first at once and each other one as long
  after the answer before it as the pause for the next delay lasts;
* its result is the last answer with the outcome of its verdict, and the attempts are exhausted
  exactly if `k` is greater than `n`;
* it takes the time of all its answers and of the pauses between them.

If it is cancelled at the instant `c`

* it makes of these attempts the first and those that begin before `c`;
* if that leaves out none, the result is the same; otherwise the call is interrupted with the last
  answer that it has, which is retryable, as soon as `c` has come and the answer too. -/
theorem run_follows_schedule (policy : BackoffPolicy) (answers : Answers ρ) :
    let n := max 1 policy.maxAttempts
    let k := firstSettled answers
    let whole := run policy answers none
    let made := whole.calls.length
    ((made : ℕ∞) = min k (n : ℕ) ∧
      whole.calls[0]? = some 0 ∧
      (∀ j, j + 1 < made → ∃ d begun, policy.delays[j]? = some d ∧ whole.calls[j]? = some begun ∧
        whole.calls[j + 1]? = some (begun + (answers j).2 + d.pauseNanos)) ∧
      whole.result = {
        response := (answers (made - 1)).1
        outcome := (Response.verdict (answers (made - 1)).1).outcome
        attempts := made
        elapsed := ((List.range made).map fun i => (answers i).2).sum +
          ((policy.delays.take (made - 1)).map Duration.pauseNanos).sum } ∧
      (whole.result.outcome = .exhausted ↔ ((n : ℕ) : ℕ∞) < k)) ∧
    ∀ c : Instant,
      let cut := run policy answers (some c)
      let kept := cut.calls.length
      cut.calls = whole.calls.take 1 ++ (whole.calls.drop 1).takeWhile (· < c) ∧
      (kept = made → cut.result = whole.result) ∧
      (kept ≠ made → Response.verdict (answers (kept - 1)).1 = .retryable ∧
        ∃ begun, cut.calls[kept - 1]? = some begun ∧
          cut.result = {
            response := (answers (kept - 1)).1
            outcome := .interrupted
            attempts := kept
            elapsed := max c (begun + (answers (kept - 1)).2) }) := by
  intro n k whole made
  obtain ⟨last, hlast⟩ := exists_isLast policy answers none
  obtain ⟨hmin, hexhausted⟩ := last_eq_min hlast
  have hmade : made = last + 1 := length_calls hlast
  have hcalls : ∀ i < made, whole.calls[i]? = some (began policy answers i) := fun i hi =>
    getElem?_calls hlast (by omega)
  have hresult : whole.result = ⟨(answers last).1, (Response.verdict (answers last).1).outcome,
      last + 1, answered policy answers last⟩ := by
    show (run policy answers none).result = _
    rw [run_eq hlast]
    exact endAt_of_settled hlast
  refine ⟨⟨?_, hcalls 0 (by omega), ?_, ?_, ?_⟩, ?_⟩
  · rw [hmade]
    exact hmin
  · intro j hj
    have hdelay := List.getElem?_eq_getElem (hlast.goes j (by omega)).allowed
    refine ⟨_, _, hdelay, hcalls j (by omega), ?_⟩
    rw [hcalls (j + 1) hj, began_succ hdelay]
    rfl
  · rw [hresult, hmade, answered_eq_sum]
    rfl
  · rw [hresult, ← hexhausted]
    cases Response.verdict (answers last).1 <;> simp [Verdict.outcome]
  · intro c cut kept
    obtain ⟨inTime, hcut⟩ := exists_isLast policy answers (some c)
    have hle := inTime_le_last hlast hcut
    have hkept : kept = inTime + 1 := length_calls hcut
    refine ⟨calls_of_cancelled hlast hcut, fun heq => ?_, fun hne => ?_⟩
    · -- as many attempts as without the cancellation: it came too late
      obtain rfl : inTime = last := by omega
      show (run policy answers (some c)).result = _
      rw [hresult, run_eq hcut]
      exact endAt_of_settled hlast
    · have hlt : inTime < last := by omega
      rw [hkept, Nat.add_sub_cancel]
      exact ⟨(hlast.goes inTime hlt).retryable, began policy answers inTime,
        getElem?_calls hcut (Nat.le_refl _), result_of_interrupted hlast hcut hlt⟩

/-- A pause that is meant to last longer than thirty years is cut short, and the attempt after it
begins early. -/
theorem attempt_before_delay_is_over :
    let delay := Duration.ofMillis 1000000000000
    let policy : BackoffPolicy := ⟨delay, 1, 2, delay⟩
    let answers : Answers WriteResponse := fun _ => (⟨some .others, "doc queue is full"⟩, 0)
    policy.delays = [delay] ∧
      (run policy answers none).calls = [0, Duration.longestPause.nanos] ∧
      Duration.longestPause.nanos < delay.nanos := by
  intro delay policy answers
  have hgoes : ∀ i < 1, GoesOn policy answers none i := by
    decide
  have hends : ¬ GoesOn policy answers none 1 := by
    decide
  refine ⟨by decide, ?_, by decide⟩
  rw [run_eq ⟨hgoes, hends⟩]
  decide

end Retry

end ShardKeeper
