import NetRelocation.Config
import NetRelocation.Notice
import NetRelocation.Timer

/-!
# Supervision of a subscription

A subscription that ends is started again after a delay. Each end counts as a failure unless the run
was longer than the threshold of stability, which starts the count afresh; a full count of failures
in a row ends the supervision with an error. What is done after a run is one decision
(`RestartPolicy.afterRun`); `supervise` strings the runs of a whole supervision together in time.
-/

namespace NetRelocation

/-! ## One decision -/

/-- What is done after a run. -/
inductive Verdict where
  /-- The failures are too many. -/
  | giveUp (attempts : Nat)
  /-- The run is repeated after the delay, with so many failures counted. -/
  | restart (attempt : Nat)
  deriving DecidableEq, Repr

namespace RestartPolicy

/-- Whether a run was long enough for the failures before it to be forgotten. -/
def isStable (policy : RestartPolicy) (uptimeMs : Nat) : Bool :=
  decide (policy.stabilityMs < uptimeMs)

/-- The failures counted after a run. -/
def countAfter (policy : RestartPolicy) (attempt uptimeMs : Nat) : Nat :=
  if policy.isStable uptimeMs then 0 else attempt + 1

/-- The decision after a run, with so many failures counted before it. -/
def afterRun (policy : RestartPolicy) (attempt uptimeMs : Nat) : Verdict :=
  let count := policy.countAfter attempt uptimeMs
  if policy.maxAttempts.toNat ≤ count then .giveUp count else .restart count

end RestartPolicy

/-! ## What is reported -/

def runEnded (source : String) : Except Error Unit → Notice
  | .ok _ => .subscriptionEnded source
  | .error e => .subscriptionFailed source e

def decided (source : String) (policy : RestartPolicy) (uptimeMs : Nat) (verdict : Verdict) :
    List Notice :=
  (if policy.isStable uptimeMs then [.subscriptionStable source policy.stabilitySecs] else []) ++
  match verdict with
  | .giveUp attempts => [.subscriptionGivenUp source attempts]
  | .restart _ => []

/-! ## Whole supervisions -/

/-- One run of a subscription. -/
structure SubscriptionRun where
  /-- How long the run lasts if nothing stops it. -/
  uptimeMs : Nat
  result : Except Error Unit
  /-- Whether it ends at once, without an error, when the supervision is cancelled. -/
  heedsCancel : Bool
  /-- What it reports, unless it is cancelled before it starts. -/
  notices : List Notice

/-- What a supervision comes to. -/
structure Supervised where
  result : Except Error Unit
  /-- When the runs were started. -/
  starts : List Nat
  /-- When the supervision ended. -/
  endsAt : Nat
  /-- What was reported, with the times. -/
  reports : List (Nat × Notice)

namespace Supervised

/-- What was reported, in order. -/
def notices (s : Supervised) : List Notice := s.reports.map (·.2)

/-- A run and what was reported come first. -/
def after (start : Nat) (reports : List (Nat × Notice)) (s : Supervised) : Supervised :=
  { s with starts := start :: s.starts, reports := reports ++ s.reports }

end Supervised

/-- Notices that are reported at a time. -/
def reportedAt (time : Nat) (notices : List Notice) : List (Nat × Notice) :=
  notices.map fun notice => (time, notice)

/-- Whether the supervision is cancelled by a time. A cancellation at time zero comes before all
else, any other one after everything else that happens at its time. -/
def cancelledBy (cancelAt : Option Nat) (now : Nat) : Bool :=
  cancelAt.any fun t => t = 0 || t < now

structure RunEnd where
  time : Nat
  result : Except Error Unit
  notices : List Notice
  /-- Whether the supervision was cancelled by then. -/
  cancelled : Bool

/-- How a run ends that is started at a time. -/
def SubscriptionRun.outcome (run : SubscriptionRun) (cancelAt : Option Nat) (start : Nat) :
    RunEnd :=
  let full := start + run.uptimeMs
  let cancelled := cancelledBy cancelAt full
  if cancelled && run.heedsCancel then
    ⟨max start (cancelAt.getD 0), .ok (), if cancelAt = some 0 then [] else run.notices, true⟩
  else ⟨full, run.result, run.notices, cancelled⟩

/-- Supervise the runs of a subscription from the one with number `n` on, which is started at `now`
with `attempt` failures counted. Gives nothing when there are more than the given number of runs. -/
def supervise (timer : Timer) (source : String) (policy : RestartPolicy)
    (runs : Nat → SubscriptionRun) (cancelAt : Option Nat) :
    Nat → (n attempt now : Nat) → Option Supervised
  | 0, _, _, _ => none
  | fuel + 1, n, attempt, now =>
    let run := (runs n).outcome cancelAt now
    let ended := reportedAt now run.notices ++ [(run.time, runEnded source run.result)]
    if run.cancelled then
      some ⟨.ok (), [now], run.time, ended ++ [(run.time, .supervisionStopped source)]⟩
    else
      let uptime := run.time - now
      let verdict := policy.afterRun attempt uptime
      let reports := ended ++ reportedAt run.time (decided source policy uptime verdict)
      match verdict with
      | .giveUp attempts => some ⟨.error (.restartsExhausted attempts), [now], run.time, reports⟩
      | .restart attempt =>
        let next := run.time + timer policy.delayMs
        match cancelAt.filter (· < next) with
        | some t => some ⟨.ok (), [now], t, reports ++ [(t, .supervisionStopped source)]⟩
        | none =>
          let restarting := Notice.subscriptionRestarting source attempt policy.maxAttempts
          (supervise timer source policy runs cancelAt fuel (n + 1) attempt next).map
            (.after now (reports ++ [(next, restarting)]))

end NetRelocation
