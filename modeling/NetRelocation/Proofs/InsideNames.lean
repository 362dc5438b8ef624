import NetRelocation.Proofs.Returns

/-!
# Names inside a namespace

A device is placed in a namespace under a name, and there it has to be asked for under that name. The
record does not keep the name. Stopping takes it from the artifact of the workload, which may be
another one than when the device was placed.

**Theorem (`asked_back_as_placed_iff`).** Throughout a run of jobs, every device that stopping would
ask for is asked for under the name it was placed under last, exactly if no job of the run *renames*
a device (`Renames`): no grant gives an attached device another name than the one it was placed
under, and no device enters under two names of one grant. `asked_back_under_new_name` is a run with
such a grant; the device is not found and stays.

The invariant is that the artifact in force gives every attached device the name it was placed under
(`Named`). Each job is looked at once (`named_concat`).
-/

namespace NetRelocation

open Program Lifecycle

variable {σ : Type} {w : WorkloadId} {d : DeviceName}

/-! ## Names that devices were placed under -/

/-- Whether a call moves a device into a namespace, and under which name. -/
def Call.Places (call : Call) (d name : DeviceName) : Prop :=
  ∃ target config addresses, call.request = .attach d target config addresses ∧
    config.name.getD d = name ∧ moved call.response = true

/-- The names that devices were placed under, after a call. -/
def placedAfter (names : DeviceName → Option DeviceName) : Call → DeviceName → Option DeviceName
  | ⟨.attach device _ config _, response⟩ =>
    if moved response then Function.update names device (some (config.name.getD device)) else names
  | ⟨.detach .., _⟩ => names

/-- The name that a device of a workload was placed under last. -/
def placed (history : List Performed) (w : WorkloadId) : DeviceName → Option DeviceName :=
  ((history.filter (·.job.workload = w)).flatMap (·.calls)).foldl placedAfter fun _ => none

theorem placed_concat_self (history : List Performed) (p : Performed) :
    placed (history ++ [p]) p.job.workload =
      p.calls.foldl placedAfter (placed history p.job.workload) := by
  simp [placed, List.flatMap_append]

theorem placed_concat_of_ne (history : List Performed) {p : Performed} (h : w ≠ p.job.workload) :
    placed (history ++ [p]) w = placed history w := by
  simp [placed, h.symm]

/-- A device has the name that some call gave it, or no call placed it. -/
theorem foldl_placedAfter (names : DeviceName → Option DeviceName) (calls : List Call)
    (d : DeviceName) :
    (calls.foldl placedAfter names d = names d ∧ ∀ call ∈ calls, ∀ name, ¬ call.Places d name) ∨
      ∃ call ∈ calls, ∃ name, call.Places d name ∧ calls.foldl placedAfter names d = some name := by
  induction calls using List.reverseRecOn with
  | nil => exact .inl ⟨rfl, fun _ h => absurd h List.not_mem_nil⟩
  | append_singleton calls call ih =>
    rw [List.foldl_append, List.foldl_cons, List.foldl_nil]
    by_cases hcall : ∃ name, call.Places d name
    · obtain ⟨name, hplaces⟩ := hcall
      refine .inr ⟨call, by simp, name, hplaces, ?_⟩
      obtain ⟨request, response⟩ := call
      obtain ⟨target, config, addresses, hrequest, rfl, hmoved⟩ := hplaces
      cases hrequest
      simp [placedAfter, hmoved]
    · have hkeeps : placedAfter (calls.foldl placedAfter names) call d =
          calls.foldl placedAfter names d := by
        obtain ⟨request, response⟩ := call
        cases request with
        | attach device target config addresses =>
          simp only [placedAfter]
          split
          · rename_i hmoved
            refine Function.update_of_ne (fun e => hcall ?_) _ _
            subst e
            exact ⟨_, target, config, addresses, rfl, rfl, hmoved⟩
          · rfl
        | detach source device restore => rfl
      rw [hkeeps]
      rcases ih with ⟨hsame, hnone⟩ | ⟨call', hcall', name, hplaces, hname⟩
      · refine .inl ⟨hsame, fun c hc name hplaces => ?_⟩
        rcases List.mem_append.1 hc with hc | hc
        · exact hnone c hc name hplaces
        · rw [List.mem_singleton.1 hc] at hplaces
          exact hcall ⟨name, hplaces⟩
      · exact .inr ⟨call', List.mem_append_left _ hcall', name, hplaces, hname⟩

/-- Where nothing is taken out, those are inside that were inside or were placed. -/
theorem mem_foldl_held_of_places {calls : List Call} {devices : Set DeviceName}
    (h : ∀ call ∈ calls, ∃ device target config addresses,
      call.request = .attach device target config addresses) :
    d ∈ calls.foldl held devices ↔ d ∈ devices ∨ ∃ call ∈ calls, ∃ name, call.Places d name := by
  induction calls generalizing devices with
  | nil => simp
  | cons call calls ih =>
    obtain ⟨device, target, config, addresses, hrequest⟩ := h call List.mem_cons_self
    obtain ⟨request, response⟩ := call
    cases hrequest
    have hplaces : (∃ name, Call.Places ⟨.attach device target config addresses, response⟩ d name) ↔
        device = d ∧ moved response = true := by
      simp only [Call.Places]
      constructor
      · rintro ⟨name, _, _, _, he, -, hmoved⟩
        cases he
        exact ⟨rfl, hmoved⟩
      · rintro ⟨rfl, hmoved⟩
        exact ⟨_, target, config, addresses, rfl, rfl, hmoved⟩
    have hheld : d ∈ held devices ⟨.attach device target config addresses, response⟩ ↔
        d ∈ devices ∨ (device = d ∧ moved response = true) := by
      cases hm : moved response with
      | true => simp [held, hm, eq_comm, or_comm]
      | false => simp [held, hm]
    rw [List.foldl_cons, ih fun call hcall => h call (List.mem_cons_of_mem _ hcall), hheld]
    simp only [List.mem_cons, exists_eq_or_imp, hplaces, or_assoc]

namespace Lifecycle

variable (r : Relocator σ) (s : σ) (jobs : List Job)

/-- What is moved in is a device of the artifact that is not attached. -/
theorem request_networkReady {ns : Option NamespaceRef} {world : World σ} {call : Call}
    (h : call ∈ (networkReady w ns).calls r world) :
    ∃ artifact, world.store.artifactOf w = some artifact ∧
      ∃ device ∈ artifact.devices, device.hostName ∉ world.store.attachedTo w ∧
        ∃ place, call.request = .attach device.hostName place device.config device.addresses := by
  cases ns with
  | none => simp [networkReady, calls] at h
  | some place =>
    obtain ⟨entry, artifact, -, -, hread, hprepared, -⟩ := mem_calls_networkReady r w h
    rw [calls_networkReady_of_prepared r w place hread hprepared] at h
    obtain ⟨device, hdevice, hnew, hrequest⟩ := mem_calls_attachAll r w place entry.attached h
    exact ⟨artifact, Store.artifactOf_eq_some.2 ⟨entry, hread, hprepared⟩, device, hdevice,
      fun hmem => hnew ((Store.mem_attachedTo_of_read hread).1 hmem), place, hrequest⟩

/-- A device that is moved in was outside and gets a name of the artifact in force. -/
theorem exists_device_of_places {ns : Option NamespaceRef} {name : DeviceName} {call : Call}
    (hcall : call ∈ (networkReady w ns).calls r (worldAfter r s jobs))
    (hplaces : call.Places d name) :
    d ∉ (worldAfter r s jobs).store.attachedTo w ∧ ∃ artifact, inForce w jobs = some artifact ∧
      ∃ device ∈ artifact.devices, device.hostName = d ∧ device.namespaceName = name := by
  obtain ⟨artifact, hartifact, device, hdevice, hout, place, hrequest⟩ :=
    request_networkReady r hcall
  obtain ⟨target, config, addresses, hrequest', hname, -⟩ := hplaces
  cases hrequest.symm.trans hrequest'
  exact ⟨hout, artifact, (artifactOf_worldAfter r s jobs w).symm.trans hartifact, device, hdevice,
    rfl, hname⟩

theorem mem_attachedTo_networkReady (ns : Option NamespaceRef) :
    d ∈ (worldAfter r s (jobs ++ [.networkReady w ns])).store.attachedTo w ↔
      d ∈ (worldAfter r s jobs).store.attachedTo w ∨
        ∃ call ∈ (networkReady w ns).calls r (worldAfter r s jobs), ∃ name,
          call.Places d name := by
  rw [← mem_foldl_held_of_places fun call hcall => ?_]
  · exact Set.ext_iff.1 (attachedTo_worldAfter_concat r s jobs (.networkReady w ns)) d
  · obtain ⟨-, -, device, -, -, place, hrequest⟩ := request_networkReady r hcall
    exact ⟨_, _, _, _, hrequest⟩

/-! ## One job -/

/-- The artifact in force gives every attached device the name that it was placed under. -/
def Named (w : WorkloadId) : Prop :=
  ∀ artifact, inForce w jobs = some artifact → ∀ device ∈ artifact.devices,
    device.hostName ∈ (worldAfter r s jobs).store.attachedTo w →
      placed (history r s jobs) w device.hostName = some device.namespaceName

/-- A job makes the artifact name a device otherwise than it was placed: a grant of an attached
device under another name, or a grant of a device under two names when the device is moved in. -/
def Renames : Job → Prop
  | .prepare w devices =>
    ∃ artifact, PreparedArtifact.ofAllocation devices = .ok artifact ∧
      ∃ device ∈ artifact.devices, device.hostName ∈ (worldAfter r s jobs).store.attachedTo w ∧
        placed (history r s jobs) w device.hostName ≠ some device.namespaceName
  | .networkReady w ns =>
    ∃ artifact, inForce w jobs = some artifact ∧
      ∃ first ∈ artifact.devices, ∃ second ∈ artifact.devices, first.hostName = second.hostName ∧
        first.namespaceName ≠ second.namespaceName ∧
        first.hostName ∉ (worldAfter r s jobs).store.attachedTo w ∧
        first.hostName ∈ (worldAfter r s (jobs ++ [.networkReady w ns])).store.attachedTo w
  | .unprepare _ => False
  | .stopping _ _ => False
  | .removed _ => False

theorem placed_history_concat (job : Job) :
    placed (history r s (jobs ++ [job])) job.workload =
      (job.program.calls r (worldAfter r s jobs)).foldl placedAfter
        (placed (history r s jobs) job.workload) := by
  rw [history_concat]
  exact placed_concat_self _ (job.perform r (worldAfter r s jobs)).1

theorem named_concat_of_ne {job : Job} (h : w ≠ job.workload) :
    Named r s (jobs ++ [job]) w ↔ Named r s jobs w := by
  have hplaced : placed (history r s (jobs ++ [job])) w = placed (history r s jobs) w := by
    rw [history_concat]
    exact placed_concat_of_ne _ h
  simp only [Named, inForce_concat_of_ne jobs h, hplaced, worldAfter_concat, Store.attachedTo,
    read_perform_ne r _ h]

theorem placed_prepare (devices : List AllocatedDevice) :
    placed (history r s (jobs ++ [.prepare w devices])) w = placed (history r s jobs) w := by
  refine (placed_history_concat r s jobs (.prepare w devices)).trans ?_
  show ((prepare w devices).calls r _).foldl _ _ = _
  rw [calls_prepare]
  rfl

theorem attachedTo_prepare_ok {devices : List AllocatedDevice} {artifact : PreparedArtifact}
    (hok : PreparedArtifact.ofAllocation devices = .ok artifact) :
    (worldAfter r s (jobs ++ [.prepare w devices])).store.attachedTo w =
      {d ∈ (worldAfter r s jobs).store.attachedTo w | d ∈ artifact.hostNames} := by
  rw [(kept_history r s _).attached, history_concat, ofHistory_concat, after_prepare r _ w _ hok,
    (kept_history r s jobs).attached]

theorem attachedTo_prepare_error {devices : List AllocatedDevice} {e : Error}
    (herror : PreparedArtifact.ofAllocation devices = .error e) :
    (worldAfter r s (jobs ++ [.prepare w devices])).store.attachedTo w =
      (worldAfter r s jobs).store.attachedTo w := by
  rw [worldAfter_concat]
  show ((prepare w devices).run r _).world.store.attachedTo w = _
  rw [run_prepare_error r w herror]

theorem named_prepare {devices : List AllocatedDevice} (h : Named r s jobs w) :
    Named r s (jobs ++ [.prepare w devices]) w ↔ ¬ Renames r s jobs (.prepare w devices) := by
  have hforce : inForce w (jobs ++ [.prepare w devices]) =
      Job.renew (inForce w jobs) (.prepare w devices) :=
    inForce_concat_self jobs (.prepare w devices)
  cases ha : PreparedArtifact.ofAllocation devices with
  | error e =>
    refine iff_of_true ?_ fun ⟨artifact, hok, _⟩ => by cases ha.symm.trans hok
    simp only [Job.renew, ha] at hforce
    unfold Named
    rw [hforce, placed_prepare, attachedTo_prepare_error r s jobs ha]
    exact h
  | ok artifact =>
    simp only [Job.renew, ha] at hforce
    unfold Named
    rw [hforce, placed_prepare, attachedTo_prepare_ok r s jobs ha]
    constructor
    · rintro hnamed ⟨artifact', hok, device, hdevice, hattached, hplaced⟩
      cases ha.symm.trans hok
      exact hplaced (hnamed artifact rfl device hdevice
        ⟨hattached, List.mem_map_of_mem hdevice⟩)
    · rintro hkeeps _ ⟨⟩ device hdevice ⟨hattached, -⟩
      by_contra hplaced
      exact hkeeps ⟨artifact, ha, device, hdevice, hattached, hplaced⟩

theorem named_networkReady {ns : Option NamespaceRef} (h : Named r s jobs w) :
    Named r s (jobs ++ [.networkReady w ns]) w ↔ ¬ Renames r s jobs (.networkReady w ns) := by
  have hforce : inForce w (jobs ++ [.networkReady w ns]) = inForce w jobs :=
    inForce_concat_self jobs (.networkReady w ns)
  have hplaced : placed (history r s (jobs ++ [.networkReady w ns])) w =
      ((networkReady w ns).calls r (worldAfter r s jobs)).foldl placedAfter
        (placed (history r s jobs) w) := placed_history_concat r s jobs (.networkReady w ns)
  unfold Named
  rw [hforce, hplaced]
  constructor
  · rintro hnamed ⟨artifact, hartifact, first, hfirst, second, hsecond, hsame, hdiffer, -, hin⟩
    have hname := hnamed artifact hartifact first hfirst hin
    rw [hsame] at hname hin
    exact hdiffer (Option.some.inj (hname.symm.trans (hnamed artifact hartifact second hsecond hin)))
  · intro hkeeps artifact hartifact device hdevice hin
    rcases foldl_placedAfter (placed (history r s jobs) w)
      ((networkReady w ns).calls r (worldAfter r s jobs)) device.hostName with
      ⟨hsame, hnone⟩ | ⟨call, hcall, name, hplaces, hname⟩
    · -- it was not moved in, so it was inside before
      rw [hsame]
      refine h artifact hartifact device hdevice
        (((mem_attachedTo_networkReady r s jobs ns).1 hin).resolve_right ?_)
      rintro ⟨call, hcall, name, hplaces⟩
      exact hnone call hcall name hplaces
    · obtain ⟨hout, artifact', hartifact', other, hother, hhost, rfl⟩ :=
        exists_device_of_places r s jobs hcall hplaces
      cases hartifact.symm.trans hartifact'
      rw [hname]
      by_contra hdiffer
      exact hkeeps ⟨artifact, hartifact, other, hother, device, hdevice, hhost,
        fun e => hdiffer (congrArg some e), hhost ▸ hout, hhost ▸ hin⟩

theorem named_stopping {ns : Option NamespaceRef} (h : Named r s jobs w) :
    Named r s (jobs ++ [.stopping w ns]) w := by
  have hforce : inForce w (jobs ++ [.stopping w ns]) = inForce w jobs :=
    inForce_concat_self jobs (.stopping w ns)
  have hplaced : placed (history r s (jobs ++ [.stopping w ns])) w =
      ((stopping w ns).calls r (worldAfter r s jobs)).foldl placedAfter
        (placed (history r s jobs) w) := placed_history_concat r s jobs (.stopping w ns)
  unfold Named
  rw [hforce, hplaced]
  intro artifact hartifact device hdevice hin
  rcases foldl_placedAfter (placed (history r s jobs) w)
    ((stopping w ns).calls r (worldAfter r s jobs)) device.hostName with
    ⟨hsame, -⟩ | ⟨call, hcall, name, ⟨_, _, _, hplaces, -⟩, -⟩
  · rw [hsame]
    exact h artifact hartifact device hdevice ((mem_attachedTo_stopping r s jobs ns).1 hin).1
  · obtain ⟨_, _, _, hasks⟩ := exists_asksBack_stopping r hcall
    cases hplaces.symm.trans hasks

/-- **A job keeps the names unless it renames a device.** -/
theorem named_concat (h : ∀ w, Named r s jobs w) (job : Job) :
    (∀ w, Named r s (jobs ++ [job]) w) ↔ ¬ Renames r s jobs job := by
  have hself : (∀ w, Named r s (jobs ++ [job]) w) ↔ Named r s (jobs ++ [job]) job.workload := by
    refine ⟨fun h => h _, fun hjob w => ?_⟩
    by_cases hw : w = job.workload
    · exact hw ▸ hjob
    · exact (named_concat_of_ne r s jobs hw).2 (h w)
  rw [hself]
  cases job with
  | prepare w devices => exact named_prepare r s jobs (h w)
  | unprepare w =>
    refine iff_of_true (fun artifact hforce => ?_) id
    cases (inForce_concat_self jobs (.unprepare w)).symm.trans hforce
  | networkReady w ns => exact named_networkReady r s jobs (h w)
  | stopping w ns => exact iff_of_true (named_stopping r s jobs (h w)) id
  | removed w =>
    refine iff_of_true (fun artifact hforce => ?_) id
    cases (inForce_concat_self jobs (.removed w)).symm.trans hforce

/-! ## Whole runs -/

theorem named_iff_of_prefix :
    (∀ before, before <+: jobs → ∀ w, Named r s before w) ↔
      ∀ before job, before ++ [job] <+: jobs → ¬ Renames r s before job := by
  induction jobs using List.reverseRecOn with
  | nil =>
    refine iff_of_true (fun before h w artifact hforce => ?_) fun before job h => ?_
    · rw [List.prefix_nil.1 h] at hforce
      cases hforce
    · exact absurd (List.prefix_nil.1 h) (by simp)
  | append_singleton jobs job ih =>
    simp only [List.prefix_concat_iff, List.append_singleton_inj]
    constructor
    · rintro hnamed before job' (⟨rfl, rfl⟩ | h)
      · exact (named_concat r s before (fun w => hnamed before (.inr List.prefix_rfl) w) job').1
          (hnamed _ (.inl rfl))
      · exact ih.1 (fun before h => hnamed before (.inr h)) before job' h
    · intro hkeeps
      have hbefore := ih.2 fun before job' h => hkeeps before job' (.inr h)
      rintro before (rfl | h)
      · exact (named_concat r s jobs (hbefore jobs List.prefix_rfl) job).2
          (hkeeps jobs job (.inl ⟨rfl, rfl⟩))
      · exact hbefore before h

/-- Stopping asks for the attached devices by the names of the artifact in force. -/
theorem asked_iff_named :
    (∀ ns, ∀ call ∈ (stopping w ns).calls r (worldAfter r s jobs), ∀ source name d,
      call.request = .detach source name (some d) → placed (history r s jobs) w d = some name) ↔
    Named r s jobs w := by
  constructor
  · intro h artifact hforce device hdevice hattached
    have hartifact := (artifactOf_worldAfter r s jobs w).trans hforce
    obtain ⟨call, hcall, hrequest⟩ :=
      exists_call_stopping r (.path "") hartifact hdevice hattached
    exact h _ call hcall _ _ _ hrequest
  · intro h ns call hcall source name d hrequest
    obtain ⟨artifact, hartifact, device, hdevice, hattached, place, -, hrequest'⟩ :=
      request_stopping r hcall
    cases hrequest.symm.trans hrequest'
    exact h artifact ((artifactOf_worldAfter r s jobs w).symm.trans hartifact) device hdevice
      hattached

/-- **Devices are asked back under the names they were placed under, unless a job renames one.** -/
theorem asked_back_as_placed_iff :
    (∀ before, before <+: jobs → ∀ w ns, ∀ call ∈ (stopping w ns).calls r (worldAfter r s before),
      ∀ source name d, call.request = .detach source name (some d) →
        placed (history r s before) w d = some name) ↔
    ∀ before job, before ++ [job] <+: jobs → ¬ Renames r s before job := by
  simp only [asked_iff_named]
  exact named_iff_of_prefix r s jobs

/-- `eth0` enters as `net0`, is granted again as `net1`, and is asked for as `net1`, which the
namespace does not have. -/
theorem asked_back_under_new_name :
    ∃ (w : WorkloadId) (eth0 net0 net1 : DeviceName),
      let m := (Memory.empty.addHostDevice "eth0").addNamespace (.path "ns/w1")
      let granted (name : DeviceName) : List AllocatedDevice :=
        [(AllocatedDevice.plain eth0 "" "").withAttribute Attribute.interfaceName name.text]
      let before : List Job := [.prepare w (granted net0), .networkReady w (some (.path "ns/w1")),
        .prepare w (granted net1)]
      net0 ≠ net1 ∧ placed (history Memory.relocator m before) w eth0 = some net0 ∧
      (stopping w (some (.path "ns/w1"))).calls Memory.relocator
          (worldAfter Memory.relocator m before) =
        [⟨.detach (.path "ns/w1") net1 (some eth0), .error (.notFound .device "net1")⟩] := by
  refine ⟨⟨"w1", by decide, by decide, by decide⟩,
    ⟨"eth0", by decide, by decide, by decide, by decide⟩,
    ⟨"net0", by decide, by decide, by decide, by decide⟩,
    ⟨"net1", by decide, by decide, by decide, by decide⟩, by decide, ?_, ?_⟩
  · cbv
  · cbv

end Lifecycle

end NetRelocation
