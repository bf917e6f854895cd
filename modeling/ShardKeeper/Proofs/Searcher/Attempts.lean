import ShardKeeper.Proofs.Searcher.Schedule
import ShardKeeper.Searcher.Call

/-!
# Pauses that grow, and attempts that are counted

The pauses of a policy never get shorter unless its factor is zero, and they are
what the attempts of a call are counted by: each attempt after the first one
takes a pause.

## Main definitions

* `Call.Sends` — a call under way after a number of attempts.

## Main results

* `BackoffPolicy.pairwise_delays` — no pause is shorter than one before it.
* `Retry.length_calls_le` — no call makes more attempts than are allowed.
* `Call.Sends.attempts_le` — nor does one that is cancelled and answered at any time.
-/

namespace ShardKeeper

namespace BackoffPolicy

variable {p : BackoffPolicy} {d next : Duration}

theorem grow_le (p : BackoffPolicy) (d : Duration) : (p.grow d).nanos ≤ p.maxDelay.nanos := by
  rw [grow, Duration.nanos_shorter]
  exact Nat.min_le_right ..

/-- A pause grows unless it is as long as any. -/
theorem le_grow (hfactor : 0 < p.multiplier) (hcap : d.nanos ≤ p.maxDelay.nanos) :
    d.nanos ≤ (p.grow d).nanos := by
  rw [grow, Duration.nanos_shorter, Duration.nanos_scale]
  exact Nat.le_min.mpr
    ⟨Nat.le_min.mpr ⟨Nat.le_mul_of_pos_right _ hfactor, d.nanos_le⟩, hcap⟩

theorem le_of_mem_delaysFrom (hfactor : 0 < p.multiplier) {count : ℕ}
    (hcap : next.nanos ≤ p.maxDelay.nanos) (hd : d ∈ p.delaysFrom next count) :
    next.nanos ≤ d.nanos := by
  induction count generalizing next with
  | zero => cases hd
  | succ count ih =>
      rcases List.mem_cons.mp hd with rfl | hlater
      · exact Nat.le_refl _
      · exact Nat.le_trans (le_grow hfactor hcap) (ih (p.grow_le next) hlater)

theorem pairwise_delaysFrom (hfactor : 0 < p.multiplier) (count : ℕ)
    (hcap : next.nanos ≤ p.maxDelay.nanos) :
    (p.delaysFrom next count).Pairwise fun a b => a.nanos ≤ b.nanos := by
  induction count generalizing next with
  | zero => exact List.Pairwise.nil
  | succ count ih =>
      refine List.pairwise_cons.mpr ⟨fun d hd => ?_, ih (p.grow_le next)⟩
      exact Nat.le_trans (le_grow hfactor hcap) (le_of_mem_delaysFrom hfactor (p.grow_le next) hd)

/-- **No pause is shorter than one before it.** -/
theorem pairwise_delays (hfactor : 0 < p.multiplier) :
    p.delays.Pairwise fun a b => a.nanos ≤ b.nanos := by
  refine pairwise_delaysFrom hfactor _ ?_
  rw [pauses, Duration.nanos_shorter]
  exact Nat.min_le_right ..

end BackoffPolicy

namespace Retry

variable {ρ : Type} [Response ρ] {policy : BackoffPolicy} {answers : Answers ρ}
variable {cancelAt : Option Instant}

/-- A call goes on only as often as there are pauses. -/
theorem IsLast.le_length_delays {last : ℕ} (h : IsLast policy answers cancelAt last) :
    last ≤ policy.delays.length := by
  by_contra hlong
  have hgoes := h.goes policy.delays.length (Nat.not_le.mp hlong)
  exact Nat.lt_irrefl _ hgoes.allowed

/-- **No call makes more attempts than are allowed.** -/
theorem length_calls_le (policy : BackoffPolicy) (answers : Answers ρ)
    (cancelAt : Option Instant) :
    (run policy answers cancelAt).calls.length ≤ max 1 policy.maxAttempts := by
  obtain ⟨last, hlast⟩ := exists_isLast policy answers cancelAt
  rw [length_calls hlast, ← policy.length_delays]
  exact Nat.succ_le_succ hlast.le_length_delays

end Retry

namespace Call

variable {ρ : Type} [Response ρ] {policy : BackoffPolicy} {c d : Call ρ} {sent : ℕ}

/-- A call under way under a policy, after a number of attempts were sent: each of them is answered
in whatever way and time, each step is as late as it may be, and the call may be cancelled. -/
inductive Sends (policy : BackoffPolicy) : ℕ → Call ρ → Prop where
  | start (now : Instant) : Sends policy 0 (.start policy now)
  | send {sent : ℕ} {c : Call ρ} (response : ρ) (latency : Duration) (now : Instant)
      (h : Sends policy sent c) (hsending : c.isSending = true) :
      Sends policy (sent + 1) (c.sent response latency now)
  | next {sent : ℕ} {c d : Call ρ} {now : Instant} {cancelled : Bool} (h : Sends policy sent c)
      (hnext : c.next? now cancelled = some d) : Sends policy sent d

/-- How many attempts a call has left at most. -/
def attemptsLeft (c : Call ρ) : ℕ :=
  match c.phase with
  | .sending | .pausing _ _ => c.retry.pauses.remaining + 1
  | .answering _ _ => c.retry.pauses.remaining
  | .ended _ => 0

/-- The step of a call never gives it more attempts: a pause is taken for each. -/
theorem attemptsLeft_next? {now : Instant} {cancelled : Bool} (h : c.next? now cancelled = some d) :
    d.attemptsLeft ≤ c.attemptsLeft := by
  unfold next? at h
  unfold attemptsLeft
  split at h
  · rename_i hphase
    rw [hphase]
    split at h
    · split at h
      · cases h
        exact Nat.zero_le _
      · rename_i hrespond
        cases h
        exact Nat.le_of_eq (Retry.remaining_of_respond hrespond)
    · cases h
  · rename_i hphase
    rw [hphase]
    split at h
    · cases h
      exact Nat.zero_le _
    · split at h
      · cases h
        exact Nat.le_refl _
      · cases h
  · cases h
  · cases h

omit [Response ρ] in
/-- An attempt that is sent is one less to come. -/
theorem attemptsLeft_sent (response : ρ) (latency : Duration) (now : Instant)
    (h : c.isSending = true) : (c.sent response latency now).attemptsLeft + 1 = c.attemptsLeft := by
  unfold isSending at h
  unfold attemptsLeft
  split at h
  · rename_i hphase
    rw [hphase]
    rfl
  · cases h

/-- **No call under way makes more attempts than are allowed.** -/
theorem Sends.attempts_le (h : Sends policy sent c) : sent ≤ max 1 policy.maxAttempts := by
  suffices hleft : sent + c.attemptsLeft ≤ max 1 policy.maxAttempts from
    Nat.le_of_add_right_le hleft
  induction h with
  | start now =>
      show 0 + (policy.maxAttempts - 1 + 1) ≤ _
      omega
  | send response latency now _ hsending ih =>
      have hone := attemptsLeft_sent response latency now hsending
      omega
  | next _ hnext ih =>
      have hless := attemptsLeft_next? hnext
      omega

end Call

end ShardKeeper
