import NetRelocation.Proofs.Ledger
import NetRelocation.Relocation.Memory

/-!
# What stopping asks back

A workload that stops gets its devices taken out of its namespace. Which devices are attached and
which artifact the workload has are kept apart: a release drops the artifact and leaves the attached
devices noted. Stopping needs both, because it walks the artifact.

**Theorem (`attached_after_stopping`).** A device is asked back exactly if it is attached and the
workload has an artifact at that moment; it stays attached exactly if no request for it moved it. So
where every request is granted, stopping leaves nothing attached, except where something was
attached and the artifact was dropped since the last grant. `left_behind_by_release` is such a run:
nothing is asked for, and the device stays.

The artifact at any moment is the fold of the jobs so far (`artifactOf_worldAfter`). That it has
every attached device is `Kept.inArtifact`.
-/

namespace NetRelocation

open Program Lifecycle

variable {σ : Type} {w : WorkloadId} {d : DeviceName}

/-! ## The artifact of a workload -/

def Store.artifactOf (store : Store) (w : WorkloadId) : Option PreparedArtifact :=
  (store.read w).bind (·.prepared)

theorem Store.artifactOf_eq_some {store : Store} {artifact : PreparedArtifact} :
    store.artifactOf w = some artifact ↔
      ∃ entry, store.read w = some entry ∧ entry.prepared = some artifact := by
  simp [Store.artifactOf, Option.bind_eq_some_iff]

theorem Store.mem_attachedTo_of_read {store : Store} {entry : Entry}
    (hread : store.read w = some entry) : d ∈ store.attachedTo w ↔ d ∈ entry.attached := by
  simp [Store.attachedTo, hread]

theorem Store.artifactOf_modify {store : Store} {f : Entry → Entry}
    (hf : ∀ entry, (f entry).prepared = entry.prepared) (v : WorkloadId) :
    (store.modify v f).artifactOf w = store.artifactOf w := by
  by_cases hv : w = v
  · subst hv
    cases hw : store.read w <;> simp [Store.artifactOf, hw, hf]
  · rw [Store.artifactOf, Store.read_modify_ne _ _ hv, Store.artifactOf]

namespace Lifecycle

/-- What a job leaves of the artifact of its workload. -/
def Job.renew (current : Option PreparedArtifact) : Job → Option PreparedArtifact
  | prepare _ devices =>
    match PreparedArtifact.ofAllocation devices with
    | .ok artifact => some artifact
    | .error _ => current
  | unprepare _ => none
  | networkReady _ _ => current
  | stopping _ _ => current
  | removed _ => none

/-- The artifact in force after some jobs: the one of the last grant that could be prepared, unless
it was dropped since. -/
def inForce (w : WorkloadId) (jobs : List Job) : Option PreparedArtifact :=
  (jobs.filter (·.workload = w)).foldl Job.renew none

theorem inForce_concat_self (jobs : List Job) (job : Job) :
    inForce job.workload (jobs ++ [job]) = job.renew (inForce job.workload jobs) := by
  simp [inForce]

theorem inForce_concat_of_ne (jobs : List Job) {job : Job} (h : w ≠ job.workload) :
    inForce w (jobs ++ [job]) = inForce w jobs := by
  simp [inForce, h.symm]

theorem artifactOf_perform_self (r : Relocator σ) (job : Job) (world : World σ) :
    (job.perform r world).2.store.artifactOf job.workload =
      job.renew (world.store.artifactOf job.workload) := by
  cases job with
  | prepare w devices =>
    show ((prepare w devices).run r world).world.store.artifactOf w = _
    cases ha : PreparedArtifact.ofAllocation devices with
    | error e => simp [run_prepare_error r w ha, Job.renew, ha, Job.workload]
    | ok artifact =>
      simp [run_prepare_ok r w ha, Job.renew, ha, Store.artifactOf, Store.recordPrepared,
        Entry.prepare]
  | unprepare w =>
    show ((unprepare w).run r world).world.store.artifactOf w = none
    rw [store_unprepare, Store.artifactOf, Store.clearPrepared, Store.read_modify_self]
    cases world.store.read w <;> rfl
  | networkReady w ns =>
    show ((networkReady w ns).run r world).world.store.artifactOf w = _
    rw [store_networkReady]
    exact Store.artifactOf_modify (fun entry => entry.prepared_afterCalls _) w
  | stopping w ns =>
    show ((stopping w ns).run r world).world.store.artifactOf w = _
    rw [store_stopping]
    refine Store.artifactOf_modify (fun entry => ?_) w
    split
    · exact entry.prepared_afterCalls _
    · exact entry.prepared_afterCalls _
  | removed w =>
    show ((removed w).run r world).world.store.artifactOf w = none
    rw [store_removed, Store.artifactOf, Store.read_purge_self]
    rfl

theorem read_perform_ne (r : Relocator σ) {job : Job} (world : World σ) (h : w ≠ job.workload) :
    (job.perform r world).2.store.read w = world.store.read w := by
  cases job with
  | prepare v devices =>
    show ((prepare v devices).run r world).world.store.read w = _
    cases ha : PreparedArtifact.ofAllocation devices with
    | error e => rw [run_prepare_error r v ha]
    | ok artifact =>
      rw [run_prepare_ok r v ha]
      exact Store.read_put_ne _ _ h
  | unprepare v =>
    show ((unprepare v).run r world).world.store.read w = _
    rw [store_unprepare]
    exact Store.read_modify_ne _ _ h
  | networkReady v ns =>
    show ((networkReady v ns).run r world).world.store.read w = _
    rw [store_networkReady]
    exact Store.read_modify_ne _ _ h
  | stopping v ns =>
    show ((stopping v ns).run r world).world.store.read w = _
    rw [store_stopping]
    exact Store.read_modify_ne _ _ h
  | removed v =>
    show ((removed v).run r world).world.store.read w = _
    rw [store_removed]
    exact Store.read_purge_ne _ h

/-- **The artifact of a workload is the one in force.** -/
theorem artifactOf_worldAfter (r : Relocator σ) (s : σ) (jobs : List Job) (w : WorkloadId) :
    (worldAfter r s jobs).store.artifactOf w = inForce w jobs := by
  induction jobs using List.reverseRecOn with
  | nil => rfl
  | append_singleton jobs job ih =>
    rw [worldAfter_concat]
    by_cases hw : w = job.workload
    · subst hw
      rw [artifactOf_perform_self, ih, inForce_concat_self]
    · rw [Store.artifactOf, read_perform_ne r _ hw, ← Store.artifactOf, ih,
        inForce_concat_of_ne jobs hw]

end Lifecycle

/-! ## Requests for a device -/

/-- Whether a call asks for a device to come back under its name on the host. -/
def Call.AsksBack (call : Call) (d : DeviceName) : Prop :=
  ∃ source name, call.request = .detach source name (some d)

/-- Where only devices are asked back, those stay inside that no request moved. -/
theorem mem_foldl_held_of_asksBack {calls : List Call} {devices : Set DeviceName}
    (h : ∀ call ∈ calls, ∃ device, call.AsksBack device) :
    d ∈ calls.foldl held devices ↔
      d ∈ devices ∧ ∀ call ∈ calls, call.AsksBack d → moved call.response = false := by
  induction calls generalizing devices with
  | nil => simp
  | cons call calls ih =>
    obtain ⟨device, source, name, hrequest⟩ := h call List.mem_cons_self
    obtain ⟨request, response⟩ := call
    cases hrequest
    have hasks : Call.AsksBack ⟨.detach source name (some device), response⟩ d ↔ device = d := by
      simp [Call.AsksBack]
    have hheld : d ∈ held devices ⟨.detach source name (some device), response⟩ ↔
        d ∈ devices ∧ (device = d → moved response = false) := by
      cases hm : moved response with
      | true => simp [held, hm, eq_comm]
      | false => simp [held, hm]
    rw [List.foldl_cons, ih fun call hcall => h call (List.mem_cons_of_mem _ hcall), hheld,
      List.forall_mem_cons, hasks, and_assoc]

namespace Lifecycle

section Stopping

variable (r : Relocator σ)

/-- Stopping only asks devices back, and those that are attached. -/
theorem request_stopping {ns : Option NamespaceRef} {world : World σ} {call : Call}
    (h : call ∈ (stopping w ns).calls r world) :
    ∃ artifact, world.store.artifactOf w = some artifact ∧
      ∃ device ∈ artifact.devices, device.hostName ∈ world.store.attachedTo w ∧
        ∃ place, ns = some place ∧
          call.request = .detach place device.namespaceName (some device.hostName) := by
  cases ns with
  | none =>
    simp only [stopping, calls, StoreAction.answer] at h
    cases hw : world.store.read w with
    | none => simp [hw, calls] at h
    | some entry => cases hp : entry.prepared <;> simp [hw, hp, calls] at h
  | some place =>
    obtain ⟨entry, artifact, -, -, hread, hprepared, -⟩ := mem_calls_stopping r w h
    rw [calls_stopping_of_prepared r w place hread hprepared] at h
    obtain ⟨device, hdevice, hattached, hrequest⟩ := mem_calls_detachAll r w place entry.attached h
    exact ⟨artifact, Store.artifactOf_eq_some.2 ⟨entry, hread, hprepared⟩, device, hdevice,
      (Store.mem_attachedTo_of_read hread).2 hattached, place, rfl, hrequest⟩

theorem exists_asksBack_stopping {ns : Option NamespaceRef} {world : World σ} {call : Call}
    (h : call ∈ (stopping w ns).calls r world) : ∃ device, call.AsksBack device := by
  obtain ⟨-, -, device, -, -, place, -, hrequest⟩ := request_stopping r h
  exact ⟨device.hostName, place, device.namespaceName, hrequest⟩

/-- An attached device of the artifact is asked back. -/
theorem exists_call_stopping (ns : NamespaceRef) {world : World σ} {artifact : PreparedArtifact}
    {device : PreparedDevice} (hartifact : world.store.artifactOf w = some artifact)
    (hdevice : device ∈ artifact.devices)
    (hattached : device.hostName ∈ world.store.attachedTo w) :
    ∃ call ∈ (stopping w (some ns)).calls r world,
      call.request = .detach ns device.namespaceName (some device.hostName) := by
  obtain ⟨entry, hread, hprepared⟩ := Store.artifactOf_eq_some.1 hartifact
  rw [calls_stopping_of_prepared r w ns hread hprepared]
  exact exists_call_detachAll r w ns _ hdevice ((Store.mem_attachedTo_of_read hread).1 hattached)
    world

end Stopping

/-- The attached devices after a job are those of the ledger. -/
theorem attachedTo_worldAfter_concat (r : Relocator σ) (s : σ) (jobs : List Job) (job : Job) :
    (worldAfter r s (jobs ++ [job])).store.attachedTo job.workload =
      Ledger.keep ((job.program.calls r (worldAfter r s jobs)).foldl held
        ((worldAfter r s jobs).store.attachedTo job.workload)) job
        (job.program.run r (worldAfter r s jobs)).value := by
  rw [(kept_history r s (jobs ++ [job])).attached, history_concat, ofHistory_concat,
    (kept_history r s jobs).attached]
  exact Function.update_self ..

theorem mem_attachedTo_stopping (r : Relocator σ) (s : σ) (jobs : List Job)
    (ns : Option NamespaceRef) :
    d ∈ (worldAfter r s (jobs ++ [.stopping w ns])).store.attachedTo w ↔
      d ∈ (worldAfter r s jobs).store.attachedTo w ∧
        ∀ call ∈ (stopping w ns).calls r (worldAfter r s jobs), call.AsksBack d →
          moved call.response = false := by
  rw [← mem_foldl_held_of_asksBack fun call => exists_asksBack_stopping r]
  exact Set.ext_iff.1 (attachedTo_worldAfter_concat r s jobs (.stopping w ns)) d

/-- **What stopping asks for.** Without an artifact it asks for nothing, whatever is attached. -/
theorem exists_asksBack_iff (r : Relocator σ) (s : σ) (jobs : List Job) (ns : NamespaceRef) :
    (∃ call ∈ (stopping w (some ns)).calls r (worldAfter r s jobs), call.AsksBack d) ↔
      d ∈ (worldAfter r s jobs).store.attachedTo w ∧ (inForce w jobs).isSome := by
  rw [← artifactOf_worldAfter r s]
  constructor
  · rintro ⟨call, hcall, source, name, hrequest⟩
    obtain ⟨artifact, hartifact, device, -, hattached, place, -, hrequest'⟩ :=
      request_stopping r hcall
    cases hrequest.symm.trans hrequest'
    exact ⟨hattached, Option.isSome_of_eq_some hartifact⟩
  · rintro ⟨hattached, hsome⟩
    obtain ⟨artifact, hartifact⟩ := Option.isSome_iff_exists.1 hsome
    obtain ⟨entry, hread, hprepared⟩ := Store.artifactOf_eq_some.1 hartifact
    -- the artifact has every attached device
    obtain ⟨device, hdevice, rfl⟩ := List.mem_map.1
      ((kept_history r s jobs).inArtifact w entry artifact hread hprepared d
        ((Store.mem_attachedTo_of_read hread).1 hattached))
    obtain ⟨call, hcall, hrequest⟩ := exists_call_stopping r ns hartifact hdevice hattached
    exact ⟨call, hcall, ns, device.namespaceName, hrequest⟩

/-- **What stopping leaves.** A device is asked back exactly if it is attached while there is an
artifact, and stays attached exactly if nothing that was asked moved it. Where every request moves
its device, something stays exactly if something was attached and no artifact was in force. -/
theorem attached_after_stopping (r : Relocator σ) (s : σ) (jobs : List Job) (w : WorkloadId)
    (ns : NamespaceRef) :
    let before := (worldAfter r s jobs).store
    let calls := (stopping w (some ns)).calls r (worldAfter r s jobs)
    let after := (worldAfter r s (jobs ++ [.stopping w (some ns)])).store
    (∀ d, (∃ call ∈ calls, call.AsksBack d) ↔
      d ∈ before.attachedTo w ∧ (inForce w jobs).isSome) ∧
    (∀ d, d ∈ after.attachedTo w ↔
      d ∈ before.attachedTo w ∧ ∀ call ∈ calls, call.AsksBack d → moved call.response = false) ∧
    ((∀ call ∈ calls, moved call.response = true) →
      (after.attachedTo w = ∅ ↔ before.attachedTo w = ∅ ∨ (inForce w jobs).isSome)) := by
  intro before calls after
  have hasked (d : DeviceName) : (∃ call ∈ calls, call.AsksBack d) ↔
      d ∈ before.attachedTo w ∧ (inForce w jobs).isSome := exists_asksBack_iff r s jobs ns
  have hleft (d : DeviceName) : d ∈ after.attachedTo w ↔ d ∈ before.attachedTo w ∧
      ∀ call ∈ calls, call.AsksBack d → moved call.response = false :=
    mem_attachedTo_stopping r s jobs (some ns)
  refine ⟨hasked, hleft, fun hmoved => ?_⟩
  simp only [Set.eq_empty_iff_forall_notMem]
  constructor
  · intro hempty
    by_contra h
    obtain ⟨hsome, hnone⟩ := not_or.1 h
    obtain ⟨d, hd⟩ := not_forall_not.1 hsome
    refine hempty d ((hleft d).2 ⟨hd, fun call hcall hasks => ?_⟩)
    exact absurd ((hasked d).1 ⟨call, hcall, hasks⟩).2 hnone
  · rintro (hempty | hsome) d hd
    · exact hempty d ((hleft d).1 hd).1
    · obtain ⟨hattached, hstays⟩ := (hleft d).1 hd
      obtain ⟨call, hcall, hasks⟩ := (hasked d).2 ⟨hattached, hsome⟩
      exact absurd (hmoved call hcall) (by rw [hstays call hcall hasks]; simp)

/-- A release between the arrival of `eth0` and the end of its workload: every request is granted,
and `eth0` stays, because nobody asks for it. -/
theorem left_behind_by_release :
    ∃ (w : WorkloadId) (eth0 : DeviceName),
      let m := (Memory.empty.addHostDevice "eth0").addNamespace (.path "ns/w1")
      let jobs := [.prepare w [.plain eth0 "" ""], .networkReady w (some (.path "ns/w1")),
        .unprepare w, .stopping w (some (.path "ns/w1"))]
      (∀ p ∈ history Memory.relocator m jobs, ∀ call ∈ p.calls, moved call.response = true) ∧
      eth0 ∈ (worldAfter Memory.relocator m jobs).store.attachedTo w := by
  let eth0 : DeviceName := ⟨"eth0", by decide, by decide, by decide, by decide⟩
  let w : WorkloadId := ⟨"w1", by decide, by decide, by decide⟩
  refine ⟨w, eth0, fun p hp call hcall => ?_,
    ⟨[.plain eth0 "" ""], none, .networkAttached, SortedSet.empty.insert eth0⟩, ?_,
    SortedSet.mem_insert.2 (.inl rfl)⟩
  · have hall : (history Memory.relocator
        ((Memory.empty.addHostDevice "eth0").addNamespace (.path "ns/w1"))
        [.prepare w [.plain eth0 "" ""], .networkReady w (some (.path "ns/w1")), .unprepare w,
          .stopping w (some (.path "ns/w1"))]).all
        (fun p => p.calls.all fun call => moved call.response) = true := by
      cbv
    exact List.all_eq_true.1 (List.all_eq_true.1 hall p hp) call hcall
  · cbv

end Lifecycle

end NetRelocation
