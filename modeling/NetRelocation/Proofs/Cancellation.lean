import NetRelocation.Proofs.RestartBudget
import Mathlib.Data.Nat.Find
import Mathlib.Order.Monotone.Basic

/-!
# Cancellation

A supervision that is not cancelled makes its runs at fixed times, each one delay after the one
before, up to the one that uses up the budget. A cancellation comes at some time between the ends
and the starts of these runs. The supervision asks whether it was cancelled after a run and during a
delay, and nowhere else.

**Theorem (`cancellation_wins`).** A cancelled supervision ends without an error unless the run that
uses up the budget is over before the cancellation. It makes the runs that would have been started
before the cancellation, and no other. A cancellation during a run takes effect at the end of this
run, also if the run uses up the budget; a cancellation during a delay takes effect at once.

There is a last run that is started before the cancellation, because the runs of a whole budget take
time unless they use it up (`exists_usedUp_or_lt_startBy`). All runs before it pass as if there were
no cancellation (`exists_supervised`), so what is left is how the last run ends (`EndsWith`).
-/

namespace NetRelocation

/-! ## The times of runs -/

namespace RestartPolicy

variable (timer : Timer) (policy : RestartPolicy) (uptime : Nat → Nat)

/-- When a run starts that is not kept from it by a cancellation. -/
def startBy (n : Nat) : Nat := totalUptime uptime n + n * timer policy.delayMs

/-- When a run ends that is not cancelled. -/
def endBy (n : Nat) : Nat := policy.startBy timer uptime n + uptime n

/-- A run takes place without cancellation: the budget is not used up before it. -/
def TakesPlace (n : Nat) : Prop := ∀ m ≤ n, ¬ policy.UsedUp uptime m

/-- A run uses up the budget. -/
def IsLast (n : Nat) : Prop := policy.TakesPlace uptime n ∧ policy.UsedUp uptime (n + 1)

theorem startBy_zero : policy.startBy timer uptime 0 = 0 := by
  simp [startBy, totalUptime]

theorem startBy_succ (n : Nat) :
    policy.startBy timer uptime (n + 1) =
      policy.endBy timer uptime n + timer policy.delayMs := by
  rw [endBy, startBy, startBy, totalUptime, Nat.succ_mul]
  omega

theorem startBy_le_endBy (n : Nat) : policy.startBy timer uptime n ≤ policy.endBy timer uptime n :=
  Nat.le_add_right _ _

theorem endBy_le_startBy_succ (n : Nat) :
    policy.endBy timer uptime n ≤ policy.startBy timer uptime (n + 1) := by
  rw [startBy_succ]
  exact Nat.le_add_right _ _

theorem startBy_mono : Monotone (policy.startBy timer uptime) :=
  monotone_nat_of_le_succ fun n =>
    Nat.le_trans (policy.startBy_le_endBy timer uptime n)
      (policy.endBy_le_startBy_succ timer uptime n)

theorem endBy_le_startBy {m n : Nat} (h : m < n) :
    policy.endBy timer uptime m ≤ policy.startBy timer uptime n :=
  Nat.le_trans (policy.endBy_le_startBy_succ timer uptime m) (policy.startBy_mono timer uptime h)

theorem endBy_mono : Monotone (policy.endBy timer uptime) :=
  monotone_nat_of_le_succ fun n =>
    Nat.le_trans (policy.endBy_le_startBy_succ timer uptime n)
      (policy.startBy_le_endBy timer uptime (n + 1))

theorem totalUptime_mono : Monotone (totalUptime uptime) :=
  monotone_nat_of_le_succ fun _ => Nat.le_add_right _ _

variable {policy uptime}

theorem TakesPlace.of_le {m n : Nat} (h : policy.TakesPlace uptime n) (hle : m ≤ n) :
    policy.TakesPlace uptime m := fun k hk => h k (Nat.le_trans hk hle)

theorem IsLast.le_of_takesPlace {m n : Nat} (h : policy.IsLast uptime n)
    (hm : policy.TakesPlace uptime m) : m ≤ n := by
  by_contra hlt
  exact hm (n + 1) (by omega) h.2

/-- Where the budget is never used up, every so many runs as there are attempts take some time
together. -/
theorem le_totalUptime_mul (h : ∀ n, ¬ policy.UsedUp uptime n) (k : Nat) :
    k ≤ totalUptime uptime (k * policy.maxAttempts.toNat) := by
  induction k with
  | zero => exact Nat.zero_le _
  | succ k ih =>
    have hwindow := h ((k + 1) * policy.maxAttempts.toNat)
    rw [Nat.succ_mul] at hwindow ⊢
    simp only [UsedUp, Nat.le_add_left, Nat.add_sub_cancel, true_and, not_forall,
      Nat.not_le] at hwindow
    -- one of the runs was stable
    obtain ⟨j, hj, hlt, hstable⟩ := hwindow
    have hbefore := totalUptime_mono uptime hj
    have hafter := totalUptime_mono uptime (Nat.succ_le_of_lt hlt)
    rw [totalUptime] at hafter
    omega

/-- Every time passes: the budget is used up or the runs go on after it. -/
theorem exists_usedUp_or_lt_startBy (policy : RestartPolicy) (uptime : Nat → Nat) (t : Nat) :
    ∃ n, policy.UsedUp uptime n ∨ t < policy.startBy timer uptime n := by
  by_contra hnone
  simp only [not_exists, not_or, Nat.not_lt] at hnone
  have hlong := le_totalUptime_mul (fun n => (hnone n).1) (t + 1)
  have hstart := (hnone ((t + 1) * policy.maxAttempts.toNat)).2
  rw [startBy] at hstart
  omega

end RestartPolicy

/-! ## One run -/

section Runs

variable (timer : Timer) (source : String) {policy : RestartPolicy} {runs : Nat → SubscriptionRun}
  {cancelAt n : Nat}

/-- The supervision that is cancelled at a time, from a run on that it came to. -/
abbrev superviseBy (timer : Timer) (source : String) (policy : RestartPolicy)
    (runs : Nat → SubscriptionRun) (cancelAt fuel n : Nat) : Option Supervised :=
  supervise timer source policy runs (some cancelAt) fuel n (policy.failures (uptimes runs) n)
    (policy.startBy timer (uptimes runs) n)

theorem cancelledBy_some {time : Nat} (h : 0 < cancelAt) :
    cancelledBy (some cancelAt) time = decide (cancelAt < time) := by
  simp [cancelledBy, Nat.ne_of_gt h]

/-- A run that is over before the cancellation ends as it would without. -/
theorem outcome_of_le (h : 0 < cancelAt)
    (hend : policy.endBy timer (uptimes runs) n ≤ cancelAt) :
    (runs n).outcome (some cancelAt) (policy.startBy timer (uptimes runs) n) =
      ⟨policy.endBy timer (uptimes runs) n, (runs n).result, (runs n).notices, false⟩ := by
  have hcancelled : cancelledBy (some cancelAt)
      (policy.startBy timer (uptimes runs) n + (runs n).uptimeMs) = false := by
    rw [cancelledBy_some h]
    exact decide_eq_false (Nat.not_lt.2 hend)
  simp only [SubscriptionRun.outcome, hcancelled, Bool.false_and, Bool.false_eq_true, if_false]
  rfl

/-- When a run ends that is cancelled on its way. -/
def cancelledEnd (timer : Timer) (policy : RestartPolicy) (runs : Nat → SubscriptionRun)
    (cancelAt n : Nat) : Nat :=
  if (runs n).heedsCancel then cancelAt else policy.endBy timer (uptimes runs) n

/-- What is reported of a run that is cancelled on its way. -/
def reportsOfCancelled (timer : Timer) (source : String) (policy : RestartPolicy)
    (runs : Nat → SubscriptionRun) (cancelAt n : Nat) : List (Nat × Notice) :=
  let ended := cancelledEnd timer policy runs cancelAt n
  reportedAt (policy.startBy timer (uptimes runs) n) (runs n).notices ++
    [(ended, runEnded source (if (runs n).heedsCancel then .ok () else (runs n).result))] ++
    [(ended, .supervisionStopped source)]

/-- **Cancelled during a run.** The supervision is over when the run is. -/
theorem superviseBy_inRun (hstart : policy.startBy timer (uptimes runs) n < cancelAt)
    (hend : cancelAt < policy.endBy timer (uptimes runs) n) (fuel : Nat) :
    superviseBy timer source policy runs cancelAt (fuel + 1) n =
      some ⟨.ok (), [policy.startBy timer (uptimes runs) n],
        cancelledEnd timer policy runs cancelAt n,
        reportsOfCancelled timer source policy runs cancelAt n⟩ := by
  have hpos := Nat.zero_lt_of_lt hstart
  have hcancelled : cancelledBy (some cancelAt)
      (policy.startBy timer (uptimes runs) n + (runs n).uptimeMs) = true := by
    rw [cancelledBy_some hpos]
    exact decide_eq_true hend
  cases hheeds : (runs n).heedsCancel with
  | true =>
    simp [superviseBy, supervise, SubscriptionRun.outcome, hcancelled, hheeds, cancelledEnd,
      reportsOfCancelled, Nat.max_eq_right (Nat.le_of_lt hstart), Nat.ne_of_gt hpos]
  | false =>
    simp [superviseBy, supervise, SubscriptionRun.outcome, hcancelled, hheeds, cancelledEnd,
      reportsOfCancelled, RestartPolicy.endBy]

/-- What is reported of a run that is over before the cancellation. -/
abbrev reportsUpTo (timer : Timer) (source : String) (policy : RestartPolicy)
    (runs : Nat → SubscriptionRun) (n : Nat) : List (Nat × Notice) :=
  reportsOfRun source policy runs (policy.failures (uptimes runs) n) n
    (policy.startBy timer (uptimes runs) n)

theorem afterRun_failures (n : Nat) :
    policy.afterRun (policy.failures (uptimes runs) n) (runs n).uptimeMs =
      if policy.maxAttempts.toNat ≤ policy.failures (uptimes runs) (n + 1) then
        .giveUp (policy.failures (uptimes runs) (n + 1))
      else .restart (policy.failures (uptimes runs) (n + 1)) := rfl

/-- The budget is used up before the cancellation. -/
theorem superviseBy_givesUp (h : 0 < cancelAt)
    (hend : policy.endBy timer (uptimes runs) n ≤ cancelAt)
    (hused : policy.UsedUp (uptimes runs) (n + 1)) (fuel : Nat) :
    superviseBy timer source policy runs cancelAt (fuel + 1) n =
      some ⟨.error (.restartsExhausted (policy.failures (uptimes runs) (n + 1))),
        [policy.startBy timer (uptimes runs) n], policy.endBy timer (uptimes runs) n,
        reportsUpTo timer source policy runs n⟩ := by
  rw [RestartPolicy.usedUp_iff] at hused
  simp only [superviseBy, supervise, outcome_of_le timer h hend, Bool.false_eq_true, if_false,
    RestartPolicy.endBy, Nat.add_sub_cancel_left, reportsUpTo, reportsOfRun, afterRun_failures,
    if_pos hused]

/-- **Cancelled during a delay.** The supervision is over at once. -/
theorem superviseBy_inDelay (h : 0 < cancelAt)
    (hend : policy.endBy timer (uptimes runs) n ≤ cancelAt)
    (hused : ¬ policy.UsedUp (uptimes runs) (n + 1))
    (hnext : cancelAt < policy.startBy timer (uptimes runs) (n + 1)) (fuel : Nat) :
    superviseBy timer source policy runs cancelAt (fuel + 1) n =
      some ⟨.ok (), [policy.startBy timer (uptimes runs) n], cancelAt,
        reportsUpTo timer source policy runs n ++ [(cancelAt, .supervisionStopped source)]⟩ := by
  rw [RestartPolicy.usedUp_iff] at hused
  rw [RestartPolicy.startBy_succ, RestartPolicy.endBy] at hnext
  simp only [superviseBy, supervise, outcome_of_le timer h hend, Bool.false_eq_true, if_false,
    RestartPolicy.endBy, Nat.add_sub_cancel_left, reportsUpTo, reportsOfRun, afterRun_failures,
    if_neg hused, Option.filter_some, decide_eq_true hnext, if_true]

/-- What is reported from the start of a run to the start of the next. -/
abbrev reportsToNext (timer : Timer) (source : String) (policy : RestartPolicy)
    (runs : Nat → SubscriptionRun) (n : Nat) : List (Nat × Notice) :=
  reportsUpTo timer source policy runs n ++
    [(policy.startBy timer (uptimes runs) (n + 1), .subscriptionRestarting source
      (policy.failures (uptimes runs) (n + 1)) policy.maxAttempts)]

/-- A run and its delay are over before the cancellation, and the next run starts. -/
theorem superviseBy_goesOn (h : 0 < cancelAt)
    (hused : ¬ policy.UsedUp (uptimes runs) (n + 1))
    (hnext : policy.startBy timer (uptimes runs) (n + 1) ≤ cancelAt) (fuel : Nat) :
    superviseBy timer source policy runs cancelAt (fuel + 1) n =
      (superviseBy timer source policy runs cancelAt fuel (n + 1)).map
        (.after (policy.startBy timer (uptimes runs) n)
          (reportsToNext timer source policy runs n)) := by
  have hend := Nat.le_trans (policy.endBy_le_startBy_succ timer (uptimes runs) n) hnext
  rw [RestartPolicy.usedUp_iff] at hused
  rw [RestartPolicy.startBy_succ, RestartPolicy.endBy] at hnext
  simp only [superviseBy, supervise, outcome_of_le timer h hend, Bool.false_eq_true, if_false,
    RestartPolicy.startBy_succ, RestartPolicy.endBy, Nat.add_sub_cancel_left, reportsToNext,
    reportsUpTo, reportsOfRun, afterRun_failures, if_neg hused, Option.filter_some,
    decide_eq_false (Nat.not_lt.2 hnext)]

end Runs

/-! ## The last run -/

section Supervision

variable {timer : Timer} {source : String} {policy : RestartPolicy} {runs : Nat → SubscriptionRun}
  {cancelAt m : Nat}

/-- How a supervision ends with the run `m`, which is the last one that is started before the
cancellation. -/
inductive EndsWith (timer : Timer) (policy : RestartPolicy) (runs : Nat → SubscriptionRun)
    (cancelAt m : Nat) : Except Error Unit → Nat → Prop
  | inRun (hend : cancelAt < policy.endBy timer (uptimes runs) m) :
    EndsWith timer policy runs cancelAt m (.ok ()) (cancelledEnd timer policy runs cancelAt m)
  | givesUp (hend : policy.endBy timer (uptimes runs) m < cancelAt)
      (hused : policy.UsedUp (uptimes runs) (m + 1)) :
    EndsWith timer policy runs cancelAt m
      (.error (.restartsExhausted (policy.failures (uptimes runs) (m + 1))))
      (policy.endBy timer (uptimes runs) m)
  | inDelay (hend : policy.endBy timer (uptimes runs) m < cancelAt)
      (hused : ¬ policy.UsedUp (uptimes runs) (m + 1))
      (hnext : cancelAt < policy.startBy timer (uptimes runs) (m + 1)) :
    EndsWith timer policy runs cancelAt m (.ok ()) cancelAt

/-- The last run that is started before the cancellation: it takes place, and without a cancellation
it would either be the last one or be followed by a run after the cancellation. -/
structure LastStarted (timer : Timer) (policy : RestartPolicy) (runs : Nat → SubscriptionRun)
    (cancelAt m : Nat) : Prop where
  takesPlace : policy.TakesPlace (uptimes runs) m
  start : policy.startBy timer (uptimes runs) m < cancelAt
  next : policy.UsedUp (uptimes runs) (m + 1) ∨
    cancelAt < policy.startBy timer (uptimes runs) (m + 1)

theorem exists_lastStarted (timer : Timer) (hM : 0 < policy.maxAttempts) (h : 0 < cancelAt)
    (hrestarts : ∀ k, policy.TakesPlace (uptimes runs) (k + 1) →
      cancelAt ≠ policy.startBy timer (uptimes runs) (k + 1)) :
    ∃ m, LastStarted timer policy runs cancelAt m := by
  classical
  have hex := RestartPolicy.exists_usedUp_or_lt_startBy timer policy (uptimes runs) cancelAt
  have hbefore : ∀ k < Nat.find hex, ¬ policy.UsedUp (uptimes runs) k ∧
      policy.startBy timer (uptimes runs) k ≤ cancelAt := fun k hk => by
    have hk := Nat.find_min hex hk
    rwa [not_or, Nat.not_lt] at hk
  -- at the very beginning nothing is used up, and no run is late
  have hpos : 0 < Nat.find hex := by
    rw [Nat.find_pos, not_or]
    constructor
    · intro hused
      exact absurd hused.1 (Nat.not_le_of_lt hM)
    · rw [RestartPolicy.startBy_zero]
      exact Nat.not_lt_zero _
  obtain ⟨m, hm⟩ := Nat.exists_eq_succ_of_ne_zero (Nat.ne_of_gt hpos)
  have hplace : policy.TakesPlace (uptimes runs) m := fun k hk => (hbefore k (by omega)).1
  refine ⟨m, hplace, ?_, ?_⟩
  · cases m with
    | zero => rwa [RestartPolicy.startBy_zero]
    | succ k => exact Nat.lt_of_le_of_ne (hbefore (k + 1) (by omega)).2 (hrestarts k hplace).symm
  · have hspec := Nat.find_spec hex
    rwa [hm] at hspec

variable (source) in
/-- **The last run ends the supervision.** -/
theorem LastStarted.exists_ending (hm : LastStarted timer policy runs cancelAt m)
    (hend : cancelAt ≠ policy.endBy timer (uptimes runs) m) :
    ∃ last : Supervised, last.starts = [policy.startBy timer (uptimes runs) m] ∧
      EndsWith timer policy runs cancelAt m last.result last.endsAt ∧
      ∀ fuel, superviseBy timer source policy runs cancelAt (fuel + 1) m = some last := by
  have hpos := Nat.zero_lt_of_lt hm.start
  rcases Nat.lt_or_gt_of_ne hend with hend | hend
  · exact ⟨_, rfl, .inRun hend, superviseBy_inRun timer source hm.start hend⟩
  · by_cases hused : policy.UsedUp (uptimes runs) (m + 1)
    · exact ⟨_, rfl, .givesUp hend hused,
        superviseBy_givesUp timer source hpos (Nat.le_of_lt hend) hused⟩
    · have hnext := hm.next.resolve_left hused
      exact ⟨_, rfl, .inDelay hend hused hnext,
        superviseBy_inDelay timer source hpos (Nat.le_of_lt hend) hused hnext⟩

/-- The runs up to the last one are made one after another. -/
theorem LastStarted.exists_supervised (hm : LastStarted timer policy runs cancelAt m)
    {last : Supervised} (hstarts : last.starts = [policy.startBy timer (uptimes runs) m])
    (hlast : ∀ fuel, superviseBy timer source policy runs cancelAt (fuel + 1) m = some last)
    {n : Nat} (hn : n ≤ m) :
    ∃ s : Supervised, s.result = last.result ∧ s.endsAt = last.endsAt ∧
      s.starts = (List.range' n (m + 1 - n)).map (policy.startBy timer (uptimes runs)) ∧
      ∀ fuel, m + 1 ≤ n + fuel →
        superviseBy timer source policy runs cancelAt fuel n = some s := by
  induction hn using Nat.decreasingInduction with
  | self =>
    refine ⟨last, rfl, rfl, by simp [hstarts], fun fuel hfuel => ?_⟩
    obtain ⟨fuel, rfl⟩ := Nat.exists_eq_succ_of_ne_zero (show fuel ≠ 0 by omega)
    exact hlast fuel
  | of_succ n hn ih =>
    obtain ⟨s, hresult, hendsAt, hruns, hs⟩ := ih
    have hused : ¬ policy.UsedUp (uptimes runs) (n + 1) := hm.takesPlace (n + 1) hn
    have hnext := Nat.le_trans (policy.startBy_mono timer (uptimes runs) hn) (Nat.le_of_lt hm.start)
    have hgoesOn := superviseBy_goesOn timer source (Nat.zero_lt_of_lt hm.start) hused hnext
    refine ⟨s.after (policy.startBy timer (uptimes runs) n)
      (reportsToNext timer source policy runs n), hresult, hendsAt, ?_, fun fuel hfuel => ?_⟩
    · have hlen : m + 1 - n = m + 1 - (n + 1) + 1 := by omega
      rw [hlen, List.range'_succ, List.map_cons, ← hruns]
      rfl
    · obtain ⟨fuel, rfl⟩ := Nat.exists_eq_succ_of_ne_zero (show fuel ≠ 0 by omega)
      rw [hgoesOn, hs fuel (by omega)]
      rfl

/-! ## What a cancellation comes to -/

/-- A run that takes place before the cancellation is not behind the last one. -/
theorem LastStarted.le_of_startBy_lt (hm : LastStarted timer policy runs cancelAt m) {k : Nat}
    (hk : policy.TakesPlace (uptimes runs) k)
    (hlt : policy.startBy timer (uptimes runs) k < cancelAt) : k ≤ m := by
  by_contra hbehind
  rcases hm.next with hused | hnext
  · exact hk (m + 1) (by omega) hused
  · have := policy.startBy_mono timer (uptimes runs) (show m + 1 ≤ k by omega)
    omega

/-- Up to the last one all runs start before the cancellation. -/
theorem LastStarted.startBy_lt (hm : LastStarted timer policy runs cancelAt m) {k : Nat}
    (hk : k ≤ m) : policy.startBy timer (uptimes runs) k < cancelAt :=
  Nat.lt_of_le_of_lt (policy.startBy_mono timer (uptimes runs) hk) hm.start

/-- A run that is cancelled on its way ends at the cancellation or later. -/
theorem le_cancelledEnd (h : cancelAt < policy.endBy timer (uptimes runs) m) :
    cancelAt ≤ cancelledEnd timer policy runs cancelAt m := by
  unfold cancelledEnd
  split
  · exact Nat.le_refl _
  · exact Nat.le_of_lt h

namespace EndsWith

variable {result : Except Error Unit} {time : Nat}

/-- No run starts after the end, and one that takes time starts before it. -/
theorem startBy_le (h : EndsWith timer policy runs cancelAt m result time)
    (hm : LastStarted timer policy runs cancelAt m) {k : Nat} (hk : k ≤ m) :
    policy.startBy timer (uptimes runs) k ≤ time ∧
      (0 < uptimes runs k → policy.startBy timer (uptimes runs) k < time) := by
  have hstart := hm.startBy_lt hk
  cases h with
  | inRun hend =>
    have hlate := le_cancelledEnd hend
    exact ⟨by omega, fun _ => by omega⟩
  | givesUp hend hused =>
    have hmono := policy.endBy_mono timer (uptimes runs) hk
    rw [RestartPolicy.endBy] at hmono
    exact ⟨by omega, fun _ => by omega⟩
  | inDelay hend hused hnext => exact ⟨Nat.le_of_lt hstart, fun _ => hstart⟩

/-- There is no error exactly if the run that uses up the budget ends after the cancellation. -/
theorem result_eq_ok_iff (h : EndsWith timer policy runs cancelAt m result time)
    (hm : LastStarted timer policy runs cancelAt m) :
    result = .ok () ↔ ∀ k, policy.IsLast (uptimes runs) k →
      cancelAt < policy.endBy timer (uptimes runs) k := by
  cases h with
  | inRun hend =>
    refine iff_of_true rfl fun k hk => ?_
    exact Nat.lt_of_lt_of_le hend
      (policy.endBy_mono timer (uptimes runs) (hk.le_of_takesPlace hm.takesPlace))
  | givesUp hend hused =>
    refine iff_of_false nofun fun hlate => ?_
    have := hlate m ⟨hm.takesPlace, hused⟩
    omega
  | inDelay hend hused hnext =>
    refine iff_of_true rfl fun k hk => ?_
    -- the last run comes after the delay
    have hne : k ≠ m := fun e => hused (e ▸ hk.2)
    have hle := hk.le_of_takesPlace hm.takesPlace
    have hstart := policy.startBy_mono timer (uptimes runs) (show m + 1 ≤ k by omega)
    have hend := policy.startBy_le_endBy timer (uptimes runs) k
    omega

/-- An error is that the budget is used up, at the end of the run that does so. -/
theorem eq_of_result_ne_ok (h : EndsWith timer policy runs cancelAt m result time)
    (hm : LastStarted timer policy runs cancelAt m) (hresult : result ≠ .ok ()) :
    result = .error (.restartsExhausted policy.maxAttempts.toNat) ∧
      policy.IsLast (uptimes runs) m ∧ time = policy.endBy timer (uptimes runs) m := by
  cases h with
  | inRun hend => exact absurd rfl hresult
  | givesUp hend hused =>
    have hle := policy.failures_le (uptimes runs) fun k hk => hm.takesPlace k (Nat.le_of_lt_succ hk)
    have hge := (policy.usedUp_iff (uptimes runs) (m + 1)).1 hused
    exact ⟨by rw [Nat.le_antisymm hle hge], ⟨hm.takesPlace, hused⟩, rfl⟩
  | inDelay hend hused hnext => exact absurd rfl hresult

/-- A cancellation during a run ends the supervision with this run. -/
theorem eq_of_inRun (h : EndsWith timer policy runs cancelAt m result time)
    (hm : LastStarted timer policy runs cancelAt m) {k : Nat}
    (hk : policy.TakesPlace (uptimes runs) k)
    (hstart : policy.startBy timer (uptimes runs) k < cancelAt)
    (hend : cancelAt < policy.endBy timer (uptimes runs) k) :
    k = m ∧ result = .ok () ∧ time = cancelledEnd timer policy runs cancelAt k := by
  obtain rfl : k = m := by
    rcases Nat.lt_or_eq_of_le (hm.le_of_startBy_lt hk hstart) with hlt | heq
    · have hover := policy.endBy_le_startBy timer (uptimes runs) hlt
      have := hm.start
      omega
    · exact heq
  cases h with
  | inRun hend => exact ⟨rfl, rfl, rfl⟩
  | givesUp hend' hused => omega
  | inDelay hend' hused hnext => omega

/-- A cancellation during a delay ends the supervision at once. -/
theorem eq_of_inDelay (h : EndsWith timer policy runs cancelAt m result time)
    (hm : LastStarted timer policy runs cancelAt m) {k : Nat}
    (hk : policy.TakesPlace (uptimes runs) (k + 1))
    (hend : policy.endBy timer (uptimes runs) k < cancelAt)
    (hnext : cancelAt < policy.startBy timer (uptimes runs) (k + 1)) :
    k = m ∧ result = .ok () ∧ time = cancelAt := by
  have hstart := policy.startBy_le_endBy timer (uptimes runs) k
  obtain rfl : k = m := by
    rcases Nat.lt_or_eq_of_le (hm.le_of_startBy_lt (hk.of_le (Nat.le_succ k)) (by omega)) with
      hlt | heq
    · have := hm.startBy_lt (show k + 1 ≤ m from hlt)
      omega
    · exact heq
  cases h with
  | inRun hend' => omega
  | givesUp hend' hused => exact absurd hused (hk (k + 1) (Nat.le_refl _))
  | inDelay hend' hused hnext' => exact ⟨rfl, rfl, rfl⟩

end EndsWith

end Supervision

/-- **Cancellation wins.** A supervision of any runs is cancelled after its beginning, at a time that
is neither the end of a run that takes place nor the start of a later one. It ends, without an error
exactly if the run that uses up the budget ends later than that, if there is one; otherwise with the
error that the budget is used up, when that run ends. It starts the runs that without the
cancellation would start before it and before the end, a run that takes no time being over when it
starts. Cancelled during a run it is over at the end of the run, which is at once if the run heeds
the cancellation; cancelled during a delay it is over at once, and no other run is started. -/
theorem cancellation_wins (timer : Timer) (source : String) (policy : RestartPolicy)
    (runs : Nat → SubscriptionRun) {cancelAt : Nat} (hM : 0 < policy.maxAttempts)
    (hpos : 0 < cancelAt)
    (hends : ∀ k, policy.TakesPlace (uptimes runs) k →
      cancelAt ≠ policy.endBy timer (uptimes runs) k)
    (hrestarts : ∀ k, policy.TakesPlace (uptimes runs) (k + 1) →
      cancelAt ≠ policy.startBy timer (uptimes runs) (k + 1)) :
    ∃ (s : Supervised) (started : Nat),
      (∀ fuel ≥ started, supervise timer source policy runs (some cancelAt) fuel 0 0 0 = some s) ∧
      (s.result = .ok () ↔ ∀ k, policy.IsLast (uptimes runs) k →
        cancelAt < policy.endBy timer (uptimes runs) k) ∧
      (s.result ≠ .ok () →
        s.result = .error (.restartsExhausted policy.maxAttempts.toNat) ∧
        ∃ k, policy.IsLast (uptimes runs) k ∧
          s.endsAt = policy.endBy timer (uptimes runs) k) ∧
      s.starts = (List.range started).map (policy.startBy timer (uptimes runs)) ∧
      (∀ k, k < started ↔ policy.TakesPlace (uptimes runs) k ∧
        policy.startBy timer (uptimes runs) k < cancelAt ∧
        policy.startBy timer (uptimes runs) k ≤ s.endsAt) ∧
      (∀ k < started, 0 < uptimes runs k → policy.startBy timer (uptimes runs) k < s.endsAt) ∧
      (∀ k, policy.TakesPlace (uptimes runs) k →
        policy.startBy timer (uptimes runs) k < cancelAt →
        cancelAt < policy.endBy timer (uptimes runs) k →
          started = k + 1 ∧ s.result = .ok () ∧
          s.endsAt = if (runs k).heedsCancel then cancelAt
            else policy.endBy timer (uptimes runs) k) ∧
      ∀ k, policy.TakesPlace (uptimes runs) (k + 1) →
        policy.endBy timer (uptimes runs) k < cancelAt →
        cancelAt < policy.startBy timer (uptimes runs) (k + 1) →
          started = k + 1 ∧ s.result = .ok () ∧ s.endsAt = cancelAt := by
  obtain ⟨m, hm⟩ := exists_lastStarted timer hM hpos hrestarts
  obtain ⟨last, hlastStarts, hending, hlast⟩ :=
    hm.exists_ending source (hends m hm.takesPlace)
  obtain ⟨s, hresult, hendsAt, hruns, hs⟩ :=
    hm.exists_supervised hlastStarts hlast (Nat.zero_le m)
  rw [← hresult, ← hendsAt] at hending
  refine ⟨s, m + 1, fun fuel hfuel => ?_, hending.result_eq_ok_iff hm, fun herror => ?_, ?_,
    fun k => ⟨fun hk => ?_, fun ⟨hk, hlt, _⟩ => ?_⟩, fun k hk => ?_, fun k hk hstart hend => ?_,
    fun k hk hend hnext => ?_⟩
  · have hfirst := hs fuel (Nat.le_trans hfuel (Nat.le_add_left fuel 0))
    rwa [superviseBy, RestartPolicy.startBy_zero] at hfirst
  · obtain ⟨hgives, hused, htime⟩ := hending.eq_of_result_ne_ok hm herror
    exact ⟨hgives, m, hused, htime⟩
  · rw [hruns, Nat.sub_zero, List.range_eq_range']
  · have hle := Nat.le_of_lt_succ hk
    exact ⟨hm.takesPlace.of_le hle, hm.startBy_lt hle, (hending.startBy_le hm hle).1⟩
  · exact Nat.lt_succ_of_le (hm.le_of_startBy_lt hk hlt)
  · exact (hending.startBy_le hm (Nat.le_of_lt_succ hk)).2
  · obtain ⟨rfl, hok, htime⟩ := hending.eq_of_inRun hm hk hstart hend
    exact ⟨rfl, hok, htime⟩
  · obtain ⟨rfl, hok, htime⟩ := hending.eq_of_inDelay hm hk hend hnext
    exact ⟨rfl, hok, htime⟩

/-- Cancelled during the run that would use up the budget, the supervision ends with it and without
an error. -/
theorem cancelled_during_last_run :
    let policy : RestartPolicy := ⟨2, 5, 300⟩
    let runs (n : Nat) : SubscriptionRun :=
      ⟨[1000, 4000].getD n 0, .error (.io (.errno Errno.noEntry)), false, []⟩
    (0 < policy.maxAttempts ∧
      (∀ k, policy.TakesPlace (uptimes runs) k → 7000 ≠ policy.endBy .limited (uptimes runs) k) ∧
      ∀ k, policy.TakesPlace (uptimes runs) (k + 1) →
        7000 ≠ policy.startBy .limited (uptimes runs) (k + 1)) ∧
    policy.IsLast (uptimes runs) 1 ∧
      ∃ s, supervise .limited "feed" policy runs (some 7000) 2 0 0 0 = some s ∧
        s.result = .ok () ∧ s.starts = [0, 6000] ∧ s.endsAt = 10000 := by
  intro policy runs
  have hM : 0 < policy.maxAttempts := by decide
  have hplace : policy.TakesPlace (uptimes runs) 1 := by
    intro m hm
    rw [RestartPolicy.usedUp_iff]
    revert m
    decide
  have hused : policy.UsedUp (uptimes runs) 2 := by
    rw [RestartPolicy.usedUp_iff]
    decide
  have hlast : policy.IsLast (uptimes runs) 1 := ⟨hplace, hused⟩
  have hends (k : Nat) (hk : policy.TakesPlace (uptimes runs) k) :
      7000 ≠ policy.endBy .limited (uptimes runs) k := by
    have hle := hlast.le_of_takesPlace hk
    clear hk
    revert k
    decide +kernel
  have hrestarts (k : Nat) (hk : policy.TakesPlace (uptimes runs) (k + 1)) :
      7000 ≠ policy.startBy .limited (uptimes runs) (k + 1) := by
    obtain rfl : k = 0 := Nat.le_zero.1 (Nat.le_of_succ_le_succ (hlast.le_of_takesPlace hk))
    decide +kernel
  obtain ⟨s, started, hs, -, -, hstarts, -, -, hinRun, -⟩ :=
    cancellation_wins .limited "feed" policy runs hM (by decide) hends hrestarts
  obtain ⟨rfl, hresult, hendsAt⟩ := hinRun 1 hplace (by decide +kernel) (by decide +kernel)
  exact ⟨⟨hM, hends, hrestarts⟩, hlast, s, hs 2 (Nat.le_refl _), hresult,
    hstarts.trans (by decide +kernel), hendsAt.trans (by decide +kernel)⟩

end NetRelocation
