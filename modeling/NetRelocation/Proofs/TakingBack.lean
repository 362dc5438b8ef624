import Mathlib
import NetRelocation.Proofs.Bookkeeping
import NetRelocation.Relocation.Memory

/-!
# Taking devices back as far as possible

A workload that stops gets its devices taken back one after another. No answer keeps the others from
being asked for: a device that cannot be taken back is reported and left for another try. The
requests with their answers are `Answered`.

**Theorem (`taken_back_as_far_as_possible`).** Stopping asks for the devices of the artifact that
are attached, each once and in their order. The report has the answers, in the same order, and tells
of each what it was (`DetachReport.Tells`). The record loses the devices of granted requests and
keeps the others; its grant and its artifact stay, and so do the records of all other workloads.
Where the names of the artifact are distinct, the failures of the report are therefore the devices
that remain attached, and stopping again asks for exactly these. `one_of_three_stays_inside` has one
answer of each kind.

The loop is `exists_answered`. That stopping again asks for the refused requests is a matter of
lists: without distinct names, a granted request would take a refused one of the same name out of
the record with it (`filter_refused`).
-/

namespace NetRelocation

open Program

variable {σ : Type}

namespace Answered

variable (answered : Answered)

theorem not_mem_names_granted {d : DeviceName} :
    d ∉ answered.granted.names ↔
      ∀ outcome ∈ answered.outcomes, outcome.device = d → moved outcome.result = false := by
  constructor
  · intro hnot outcome houtcome hdevice
    obtain ⟨p, hp, rfl⟩ := List.mem_map.1 houtcome
    by_contra hmoved
    exact hnot (List.mem_map.2
      ⟨p, List.mem_filter.2 ⟨hp, by simpa using hmoved⟩, hdevice⟩)
  · intro h hmem
    obtain ⟨p, hp, hdevice⟩ := List.mem_map.1 hmem
    obtain ⟨hp, hmoved⟩ := List.mem_filter.1 hp
    exact absurd (h _ (List.mem_map_of_mem hp) hdevice) (by simpa using hmoved)

theorem device_outcomes : answered.outcomes.map (·.device) = answered.names := by
  simp [outcomes, names]

theorem names_eq_map : answered.names = (answered.map (·.1)).map (·.hostName) := by
  simp [names]

/-- Which requests are made does not depend on the answers. -/
theorem request_calls (ns : NamespaceRef) :
    (answered.calls ns).map (·.request) = (answered.map (·.1)).map fun device =>
      .detach ns device.namespaceName (some device.hostName) := by
  simp [calls, Call.moveOut]

end Answered

/-! ## What a report tells -/

/-- What a report tells of the requests that were made. -/
structure DetachReport.Tells (report : DetachReport) (answered : Answered) : Prop where
  outcomes : report.outcomes = answered.outcomes
  failures : report.failures = answered.refused.outcomes
  detached : report.detached + report.failures.length = report.outcomes.length
  restoredDown : report.restoredDown =
    report.outcomes.filter fun outcome => moved outcome.result && !outcome.result.isOk
  isComplete : report.isComplete = true ↔ ∀ p ∈ answered, p.2 = .ok ()

theorem DetachReport.tells_outcomes (answered : Answered) :
    (DetachReport.mk answered.outcomes).Tells answered where
  outcomes := rfl
  failures := by
    simp only [failures, Answered.outcomes, Answered.refused, List.filter_map, Function.comp_def,
      returned_eq_moved]
  detached := by
    rw [detached, failures, ← List.length_eq_length_filter_add]
  restoredDown := by
    refine List.filter_congr fun outcome _ => ?_
    rw [returned_eq_moved, Bool.and_comm]
    congr 2
    obtain ⟨device, e | _⟩ := outcome <;> rfl
  isComplete := by
    simp only [isComplete, Answered.outcomes, List.all_map, List.all_eq_true, Function.comp]
    refine forall₂_congr fun p _ => ?_
    obtain ⟨device, e | _⟩ := p <;> simp [DetachOutcome.isOk]

namespace Lifecycle

variable (r : Relocator σ) (w : WorkloadId) (ns : NamespaceRef) (attached : SortedSet DeviceName)

/-! ## The operation -/

/-- **Of distinct devices, those stay that no request moved.** -/
theorem filter_refused {devices : List PreparedDevice} {answered : Answered}
    {after : SortedSet DeviceName} (hdistinct : (devices.map (·.hostName)).Nodup)
    (hdue : answered.map (·.1) = devices.filter (·.hostName ∈ attached))
    (hafter : ∀ d, d ∈ after ↔ d ∉ answered.granted.names ∧ d ∈ attached) :
    devices.filter (·.hostName ∈ after) = answered.refused.map (·.1) := by
  have hnodup : answered.names.Nodup := by
    have hsub : (answered.map (·.1)).Sublist devices := hdue ▸ List.filter_sublist
    rw [answered.names_eq_map]
    exact (hsub.map (·.hostName)).nodup hdistinct
  have hsame (p) (hp : p ∈ answered) :
      p.1.hostName ∉ answered.granted.names ↔ moved p.2 = false := by
    rw [answered.not_mem_names_granted]
    constructor
    · intro h
      exact h _ (List.mem_map_of_mem hp) rfl
    · intro hmoved outcome houtcome hname
      obtain ⟨q, hq, rfl⟩ := List.mem_map.1 houtcome
      obtain rfl := List.inj_on_of_nodup_map hnodup hq hp hname
      exact hmoved
  calc devices.filter (·.hostName ∈ after)
      = (devices.filter (·.hostName ∈ attached)).filter (·.hostName ∉ answered.granted.names) := by
        rw [List.filter_filter]
        exact List.filter_congr fun device _ => by simp [hafter]
    _ = (answered.filter fun p => p.1.hostName ∉ answered.granted.names).map (·.1) := by
        rw [← hdue, List.filter_map]
        rfl
    _ = answered.refused.map (·.1) := by
        refine congrArg (List.map _) (List.filter_congr fun p hp => ?_)
        simp [hsame p hp]

/-- **A workload that stops.** Every attached device of the artifact is asked for, whatever came of
the others; the report tells what came of each, and the record keeps those that are still inside. -/
theorem taken_back_as_far_as_possible {world : World σ} {entry : Entry}
    {artifact : PreparedArtifact} (hread : world.store.read w = some entry)
    (hprepared : entry.prepared = some artifact) :
    let o := (stopping w (some ns)).run r world
    ∃ answered : Answered, ∃ after,
      -- one request for each attached device, in the order of the artifact
      answered.map (·.1) = artifact.devices.filter (·.hostName ∈ entry.attached) ∧
      (stopping w (some ns)).calls r world = answered.calls ns ∧
      o.value.Tells answered ∧
      -- the record
      o.world.store.read w = some after ∧
      after.allocation = entry.allocation ∧ after.prepared = some artifact ∧
      after.phase = .networkDetached ∧
      (∀ d, d ∈ after.attached ↔
        d ∈ entry.attached ∧ ∀ outcome ∈ o.value.outcomes, outcome.device = d →
          moved outcome.result = false) ∧
      (∀ v, v ≠ w → o.world.store.read v = world.store.read v) ∧
      -- stopping again
      (artifact.hostNames.Nodup →
        o.value.failures.map (·.device) = artifact.hostNames.filter (· ∈ after.attached) ∧
        ∀ again : World σ, again.store = o.world.store →
          ((stopping w (some ns)).calls r again).map (·.request) =
            (answered.refused.calls ns).map (·.request)) := by
  intro o
  obtain ⟨answered, hdue, hcalls, hvalue, hstore⟩ :=
    exists_answered r w ns entry.attached artifact.devices world
  have ho := run_stopping_of_read r w ns hread hprepared
  have hreport : o.value = ⟨answered.outcomes⟩ := by
    rw [← hvalue]
    exact congrArg Outcome.value ho
  have hworld : o.world.store =
      (world.store.modify w (answered.granted.names.foldl Entry.detach)).markNetworkDetached w := by
    rw [← hstore]
    exact congrArg (·.world.store) ho
  obtain ⟨hallocation, hartifact, hattached⟩ :=
    Entry.foldl_detach answered.granted.names entry
  have hafter : o.world.store.read w =
      some (answered.granted.names.foldl Entry.detach entry).leave := by
    rw [hworld, Store.markNetworkDetached, Store.modify_modify, Store.read_modify_self, hread]
    rfl
  refine ⟨answered, _, hdue, ?_, ?_, hafter, hallocation, hartifact.trans hprepared, rfl, ?_, ?_,
    ?_⟩
  · rw [calls_stopping_of_prepared r w ns hread hprepared, hcalls]
  · rw [hreport]
    exact DetachReport.tells_outcomes answered
  · intro d
    rw [hreport, ← Answered.not_mem_names_granted, and_comm]
    exact hattached d
  · intro v hv
    rw [hworld, Store.markNetworkDetached, Store.modify_modify, Store.read_modify_ne _ _ hv]
  · intro hdistinct
    have hrefused := filter_refused entry.attached hdistinct hdue hattached
    constructor
    · rw [hreport, (DetachReport.tells_outcomes answered).failures, Answered.device_outcomes,
        Answered.names_eq_map, ← hrefused, PreparedArtifact.hostNames, List.filter_map]
      rfl
    · intro again hagain
      have hread' := congrArg (·.read w) hagain
      obtain ⟨answers, hdue', hcalls', -⟩ := exists_answered r w ns
        (answered.granted.names.foldl Entry.detach entry).leave.attached artifact.devices again
      rw [calls_stopping_of_prepared r w ns (hread'.trans hafter) (hartifact.trans hprepared),
        hcalls', Answered.request_calls, Answered.request_calls, hdue']
      exact congrArg (List.map _) hrefused

/-- Of three devices the first comes back, the second comes back and stays down, and the third stays
inside. Only the third is asked for again. -/
theorem one_of_three_stays_inside :
    ∃ (w : WorkloadId) (eth0 eth1 eth2 : DeviceName) (world : World Memory),
      [eth0, eth1, eth2].map (·.text) = ["eth0", "eth1", "eth2"] ∧
      let o := (stopping w (some (.path "ns/w1"))).run Memory.relocator world
      o.value.outcomes.map (·.device) = [eth0, eth1, eth2] ∧
      o.value.failures.map (·.device) = [eth2] ∧ o.value.restoredDown.map (·.device) = [eth1] ∧
      ∃ answered : Answered, ∃ after,
        answered.map (·.1.hostName) = [eth0, eth1, eth2] ∧ o.value.Tells answered ∧
        o.world.store.read w = some after ∧ after.attached.elements = [eth2] ∧
        after.phase = .networkDetached ∧
        ∀ again : World Memory, again.store = o.world.store →
          ((stopping w (some (.path "ns/w1"))).calls Memory.relocator again).map (·.request) =
            (answered.refused.calls (.path "ns/w1")).map (·.request) := by
  let w : WorkloadId := ⟨"w1", by decide, by decide, by decide⟩
  let eth0 : DeviceName := ⟨"eth0", by decide, by decide, by decide, by decide⟩
  let eth1 : DeviceName := ⟨"eth1", by decide, by decide, by decide, by decide⟩
  let eth2 : DeviceName := ⟨"eth2", by decide, by decide, by decide, by decide⟩
  let granted : List AllocatedDevice := [eth0, eth1, eth2].map (.plain · "" "")
  let artifact : PreparedArtifact := ⟨[eth0, eth1, eth2].map (⟨·, .empty, []⟩)⟩
  let attached := ((SortedSet.empty.insert eth0).insert eth1).insert eth2
  let entry : Entry := ⟨granted, some artifact, .networkAttached, attached⟩
  let links := ((Memory.empty.addHostDevice "eth0").addHostDevice "eth1").addHostDevice "eth2"
  let m : Memory := { Memory.empty with
    namespaces := Table.empty.insert (NamespaceRef.path "ns/w1").key links.host
    failures := [(.enable, "eth1"), (.detach, "eth2")] }
  let world : World Memory := ⟨Store.empty.put w entry, m⟩
  have hread : world.store.read w = some entry := Store.read_put_self _ _ _
  have hprepared : entry.prepared = some artifact := rfl
  obtain ⟨answered, after, hdue, -, htells, hafter, -, -, hphase, -, -, hagain⟩ :=
    taken_back_as_far_as_possible Memory.relocator w (.path "ns/w1") hread hprepared
  have hend :
      ((stopping w (some (.path "ns/w1"))).run Memory.relocator world).world.store.read w =
        some ⟨granted, some artifact, .networkDetached, SortedSet.empty.insert eth2⟩ := by
    cbv
  obtain rfl := Option.some.inj (hafter.symm.trans hend)
  have hnames : answered.map (·.1.hostName) = [eth0, eth1, eth2] := by
    have h := congrArg (List.map (·.hostName)) hdue
    rw [List.map_map] at h
    exact h.trans (by cbv)
  exact ⟨w, eth0, eth1, eth2, world, rfl, by cbv, by cbv, by cbv, answered, _, hnames, htells,
    hafter, rfl, hphase, (hagain (by decide)).2⟩

end Lifecycle

end NetRelocation
