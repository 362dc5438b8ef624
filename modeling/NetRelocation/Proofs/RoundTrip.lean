import NetRelocation.Proofs.Bookkeeping
import NetRelocation.Proofs.Grants
import NetRelocation.Proofs.MemoryMoves

/-!
# A workload that comes and goes

A workload is granted devices, its namespace appears and the devices are moved into it; it stops
and they are moved back. With the tables as what moves devices, and nothing in the way, every device
ends where it began, with the properties that its grant asks for.

**Theorem (`round_trip`).** Preparing, moving in and moving out succeed and answer for all devices
in the order of the grant. In between, every device is in the namespace alone, up and with its
addresses. At the end it is on the host under its own name, up and without addresses, with its
alias, and with another packet size or hardware address only where one was granted; no other link
was touched.

Both loops are inductions over the devices of the artifact (`run_attachAll`, `run_detachAll`), with
the moves of one device as their steps (`movedIn_attach`, `movedOut_detach`).
-/

namespace NetRelocation

open Memory PreparedDevice

/-! ## The record after many moves -/

namespace Entry

/-- A record whose devices were all moved in and out has none attached. -/
theorem leave_foldl_detach_attach (granted : List AllocatedDevice) (artifact : PreparedArtifact)
    (phase : Phase) :
    (artifact.hostNames.foldl detach
      (artifact.hostNames.foldl attach ⟨granted, some artifact, phase, .empty⟩)).leave =
        ⟨granted, some artifact, .networkDetached, .empty⟩ := by
  obtain ⟨hallocation, hprepared, hattached⟩ :=
    foldl_attach artifact.hostNames ⟨granted, some artifact, phase, .empty⟩
  obtain ⟨hallocation', hprepared', hattached'⟩ := foldl_detach artifact.hostNames
    (artifact.hostNames.foldl attach ⟨granted, some artifact, phase, .empty⟩)
  rw [hallocation] at hallocation'
  rw [hprepared] at hprepared'
  have hempty := SortedSet.eq_empty_of_forall_not_mem fun d hd => by
    rw [hattached', hattached] at hd
    exact hd.2.elim hd.1 (SortedSet.not_mem_empty d)
  rw [leave, hallocation', hprepared', hempty]

end Entry

namespace Lifecycle

open Program

variable (w : WorkloadId) (ns : NamespaceRef) (attached : SortedSet DeviceName)
  {devices : List PreparedDevice} {m : Memory} (store : Store)

/-! ## The loops -/

/-- **Moving in.** Devices that nothing keeps out are all moved in and noted. -/
theorem run_attachAll (h : Enterable ns devices m)
    (hattached : ∀ device ∈ devices, device.hostName ∉ attached) :
    ((attachAll w ns attached devices).run relocator ⟨store, m⟩).value =
        .ok (devices.map m.arrival) ∧
      ((attachAll w ns attached devices).run relocator ⟨store, m⟩).world.store =
        store.modify w ((devices.map (·.hostName)).foldl Entry.attach) ∧
      MovedIn ns devices m
        ((attachAll w ns attached devices).run relocator ⟨store, m⟩).world.relocator := by
  induction devices generalizing m store with
  | nil => exact ⟨rfl, (store.modify_id w).symm, untouched_nil ns m, nofun, nofun⟩
  | cons device devices ih =>
    obtain ⟨m', hattach, hfirst⟩ := movedIn_attach h
    obtain ⟨hvalue, hstore, hrest⟩ := ih (store.markAttached w device.hostName)
      (h.tail hfirst.toUntouched) fun d hd => hattached d (List.mem_cons_of_mem _ hd)
    have hanswer : relocator.answer
        (.attach device.hostName ns device.config device.addresses) m =
          ⟨.ok (m.arrival device), [], m'⟩ := by
      show silent (m.attach _ _ _ _) = _
      rw [hattach]
      rfl
    have harrival : devices.map m'.arrival = devices.map m.arrival := by
      refine List.map_congr_left fun d hd => ?_
      obtain ⟨hhost, hinside⟩ := h.distinct.ne hd
      simp only [arrival, (hfirst.of_ne hhost hinside).1]
    simp only [attachAll, if_neg (hattached device List.mem_cons_self), run, hanswer, run_bind,
      Outcome.value_after, Outcome.world_after, StoreAction.apply, pure_eq]
    refine ⟨?_, ?_, hfirst.cons hrest h.distinct⟩
    · rw [hvalue, harrival]
      rfl
    · rw [hstore, Store.markAttached, Store.modify_modify]
      rfl

/-- **Moving out.** Devices that nothing keeps in are all moved out and noted. -/
theorem run_detachAll (h : Leavable ns devices m)
    (hattached : ∀ device ∈ devices, device.hostName ∈ attached) :
    ((detachAll w ns attached devices).run relocator ⟨store, m⟩).value =
        devices.map (fun device => ⟨device.hostName, .ok ()⟩) ∧
      ((detachAll w ns attached devices).run relocator ⟨store, m⟩).world.store =
        store.modify w ((devices.map (·.hostName)).foldl Entry.detach) ∧
      MovedOut ns devices m
        ((detachAll w ns attached devices).run relocator ⟨store, m⟩).world.relocator := by
  induction devices generalizing m store with
  | nil => exact ⟨rfl, (store.modify_id w).symm, untouched_nil ns m, nofun, nofun⟩
  | cons device devices ih =>
    obtain ⟨m', hdetach, hfirst⟩ := movedOut_detach h
    obtain ⟨hvalue, hstore, hrest⟩ := ih (store.markDetached w device.hostName)
      (h.tail hfirst.toUntouched) fun d hd => hattached d (List.mem_cons_of_mem _ hd)
    have hanswer : relocator.answer
        (.detach ns device.namespaceName (some device.hostName)) m = ⟨.ok (), [], m'⟩ := by
      show silent (m.detach _ _ _) = _
      rw [hdetach]
      rfl
    rw [detachAll_cons_of_mem w ns attached (hattached device List.mem_cons_self)]
    simp only [run, hanswer, run_bind, run_noteDetached, Outcome.value_after, Outcome.world_after,
      pure_eq]
    refine ⟨congrArg (_ :: ·) hvalue, hstore.trans ?_, hfirst.cons hrest h.distinct⟩
    rw [Store.markDetached, Store.modify_modify]
    rfl

/-! ## The steps of a life -/

variable {entry : Entry} {artifact : PreparedArtifact} {store : Store}

/-- The record of a workload that is granted devices for the first time. -/
theorem read_recordPrepared (hread : store.read w = none) (granted : List AllocatedDevice)
    (artifact : PreparedArtifact) :
    (store.recordPrepared w granted artifact).read w =
      some ⟨granted, some artifact, .prepared, .empty⟩ := by
  rw [Store.recordPrepared, Store.entryOrNew, hread, Store.read_put_self]
  rfl

theorem networkReady_ok (hread : store.read w = some entry)
    (hprepared : entry.prepared = some artifact) (h : Enterable ns artifact.devices m)
    (hattached : ∀ device ∈ artifact.devices, device.hostName ∉ entry.attached) :
    ((networkReady w (some ns)).run relocator ⟨store, m⟩).value =
        .ok (artifact.devices.map m.arrival) ∧
      ((networkReady w (some ns)).run relocator ⟨store, m⟩).world.store =
        store.modify w (artifact.hostNames.foldl Entry.attach) ∧
      MovedIn ns artifact.devices m
        ((networkReady w (some ns)).run relocator ⟨store, m⟩).world.relocator := by
  rw [run_networkReady_of_read relocator w ns hread hprepared]
  exact run_attachAll w ns entry.attached store h hattached

theorem stopping_ok (hread : store.read w = some entry)
    (hprepared : entry.prepared = some artifact) (h : Leavable ns artifact.devices m)
    (hattached : ∀ device ∈ artifact.devices, device.hostName ∈ entry.attached) :
    ((stopping w (some ns)).run relocator ⟨store, m⟩).value =
        ⟨artifact.devices.map fun device => ⟨device.hostName, .ok ()⟩⟩ ∧
      ((stopping w (some ns)).run relocator ⟨store, m⟩).world.store =
        store.modify w (fun entry => (artifact.hostNames.foldl Entry.detach entry).leave) ∧
      MovedOut ns artifact.devices m
        ((stopping w (some ns)).run relocator ⟨store, m⟩).world.relocator := by
  obtain ⟨hvalue, hstore, hmoved⟩ := run_detachAll w ns entry.attached store h hattached
  rw [run_stopping_of_read relocator w ns hread hprepared]
  refine ⟨congrArg DetachReport.mk hvalue, ?_, hmoved⟩
  show Store.markNetworkDetached _ w = _
  rw [hstore, Store.markNetworkDetached, Store.modify_modify]
  rfl

/-! ## The round trip -/

/-- **A workload comes and goes.** Every step of its life succeeds, and every device is inside the
namespace in between and back on the host in the end. -/
theorem round_trip {granted : List AllocatedDevice} (hread : store.read w = none)
    (hgrant : PreparedArtifact.ofAllocation granted = .ok artifact)
    (h : Enterable ns artifact.devices m) :
    let prepared := (prepare w granted).run relocator ⟨store, m⟩
    let ready := (networkReady w (some ns)).run relocator prepared.world
    let stopped := (stopping w (some ns)).run relocator ready.world
    -- every step succeeds, with one answer for each device in the order of the grant
    artifact.hostNames = granted.map (·.name) ∧
    prepared.value = .ok artifact ∧
    ready.value = .ok (artifact.devices.map m.arrival) ∧
    stopped.value = ⟨artifact.devices.map fun device => ⟨device.hostName, .ok ()⟩⟩ ∧
    stopped.value.isComplete = true ∧
    -- in between, every device is in the namespace and no other link has changed
    (∀ device ∈ artifact.devices, ∃ link, m.host.get? device.hostName.text = some link ∧
      ready.world.relocator.host.get? device.hostName.text = none ∧
      ready.world.relocator.namespaceLink ns device.namespaceName.text =
        some { up := true
               mtu := (device.config.mtu.filter (0 < ·)).getD link.mtu
               hardwareAddr := device.config.hardwareAddr.getD link.hardwareAddr
               aliasName := link.aliasName
               addresses := device.addresses }) ∧
    Untouched ns artifact.devices m ready.world.relocator ∧
    -- in the end, every device is on the host and no other link has changed
    (∀ device ∈ artifact.devices, ∃ link, m.host.get? device.hostName.text = some link ∧
      stopped.world.relocator.host.get? device.hostName.text =
        some { up := true
               mtu := (device.config.mtu.filter (0 < ·)).getD link.mtu
               hardwareAddr := device.config.hardwareAddr.getD link.hardwareAddr
               aliasName := link.aliasName
               addresses := [] }) ∧
    (∀ name, name ∉ hostTexts artifact.devices →
      stopped.world.relocator.host.get? name = m.host.get? name) ∧
    (∀ key, stopped.world.relocator.namespaces.get? key = m.namespaces.get? key) ∧
    -- the record is the one of a workload without devices, and no other record has changed
    stopped.world.store.read w = some ⟨granted, some artifact, .networkDetached, .empty⟩ ∧
    ∀ v, v ≠ w → stopped.world.store.read v = store.read v := by
  intro prepared ready stopped
  have hworld : prepared.world = ⟨store.recordPrepared w granted artifact, m⟩ := by
    simp only [prepared, run_prepare_ok relocator w hgrant]
  have hentry := read_recordPrepared w hread granted artifact
  obtain ⟨hready, hreadyStore, hin⟩ := networkReady_ok w ns hentry rfl h
    fun d _ => SortedSet.not_mem_empty d.hostName
  rw [← hworld] at hready hreadyStore hin
  have hattached := Entry.foldl_attach artifact.hostNames
    ⟨granted, some artifact, .prepared, .empty⟩
  have hentry' : ready.world.store.read w = some (artifact.hostNames.foldl Entry.attach
      ⟨granted, some artifact, .prepared, .empty⟩) := by
    rw [show ready.world.store = _ from hreadyStore, Store.read_modify_self, hentry]
    rfl
  obtain ⟨hstopped, hstoppedStore, hout⟩ := stopping_ok w ns hentry' hattached.2.1
    (h.leavable hin) fun d hd => (hattached.2.2 d.hostName).2 (.inl (List.mem_map_of_mem hd))
  refine ⟨hostNames_ofAllocation hgrant, ?_, hready, hstopped, ?_, ?_, hin.toUntouched, ?_, ?_,
    hin.namespaces_movedOut hout h.free, ?_, ?_⟩
  · simp only [prepared, run_prepare_ok relocator w hgrant]
  · rw [show stopped.value = _ from hstopped, DetachReport.isComplete, List.all_map]
    exact List.all_eq_true.2 fun _ _ => rfl
  · intro device hdevice
    obtain ⟨link, hlink⟩ := Option.isSome_iff_exists.1 (h.present device hdevice)
    refine ⟨link, hlink, hin.absent device hdevice, (hin.arrived device hdevice).trans ?_⟩
    rw [hlink]
    rfl
  · intro device hdevice
    obtain ⟨link, hlink⟩ := Option.isSome_iff_exists.1 (h.present device hdevice)
    refine ⟨link, hlink, (hin.host_movedOut hout hdevice).trans ?_⟩
    rw [hlink]
    rfl
  · intro name hname
    exact (hout.host name hname).trans (hin.host name hname)
  · rw [show stopped.world.store = _ from hstoppedStore, Store.read_modify_self, hentry',
      Option.map_some, Entry.leave_foldl_detach_attach]
  · intro v hv
    rw [show stopped.world.store = _ from hstoppedStore, Store.read_modify_ne _ _ hv,
      show ready.world.store = _ from hreadyStore, Store.read_modify_ne _ _ hv]
    exact Store.read_put_ne _ _ hv

/-- Two devices that swap their names come back under their own. -/
theorem round_trip_of_swapped_names :
    ∃ (w : WorkloadId) (eth0 eth1 : DeviceName) (granted : List AllocatedDevice),
      eth0.text = "eth0" ∧ eth1.text = "eth1" ∧ granted.map (·.name) = [eth0, eth1] ∧
      let m := ((Memory.empty.addHostDevice "eth0").addHostDevice "eth1").addNamespace
        (.path "ns/w1")
      let prepared := (prepare w granted).run relocator ⟨.empty, m⟩
      let ready := (networkReady w (some (.path "ns/w1"))).run relocator prepared.world
      let stopped := (stopping w (some (.path "ns/w1"))).run relocator ready.world
      stopped.value = ⟨[⟨eth0, .ok ()⟩, ⟨eth1, .ok ()⟩]⟩ ∧ stopped.value.isComplete = true ∧
      ∀ key, stopped.world.relocator.namespaces.get? key = m.namespaces.get? key := by
  let w : WorkloadId := ⟨"w1", by decide, by decide, by decide⟩
  let eth0 : DeviceName := ⟨"eth0", by decide, by decide, by decide, by decide⟩
  let eth1 : DeviceName := ⟨"eth1", by decide, by decide, by decide, by decide⟩
  let granted : List AllocatedDevice :=
    [(AllocatedDevice.plain eth0 "" "").withAttribute Attribute.interfaceName "eth1",
      (AllocatedDevice.plain eth1 "" "").withAttribute Attribute.interfaceName "eth0"]
  let artifact : PreparedArtifact :=
    ⟨[⟨eth0, { LinkConfig.empty with name := some eth1 }, []⟩,
      ⟨eth1, { LinkConfig.empty with name := some eth0 }, []⟩]⟩
  have hgrant : PreparedArtifact.ofAllocation granted = .ok artifact := by rfl
  have h : Enterable (.path "ns/w1") artifact.devices
      (((Memory.empty.addHostDevice "eth0").addHostDevice "eth1").addNamespace (.path "ns/w1")) :=
    { known := by rfl
      distinct := ⟨by decide, by decide⟩
      present := by decide
      free := by decide
      unfailing := fun _ _ _ => ⟨rfl, rfl⟩ }
  obtain ⟨-, -, -, hvalue, hcomplete, -, -, -, -, hnamespaces, -⟩ :=
    round_trip w (.path "ns/w1") (Store.read_empty w) hgrant h
  exact ⟨w, eth0, eth1, granted, rfl, rfl, rfl, hvalue, hcomplete, hnamespaces⟩

end Lifecycle

end NetRelocation
