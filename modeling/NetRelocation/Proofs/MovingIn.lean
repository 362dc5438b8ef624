import NetRelocation.Proofs.Returns

/-!
# Moving in up to the first failure

When the namespace of a workload exists, its devices are moved in one after another, and the first
that fails ends it. What that comes to for the devices that are due is `MovesIn`.

**Theorem (`moved_in_up_to_first_failure`).** Whatever the answers are, for a workload with an
artifact the devices that are due are those that are not attached, in the order of the artifact. The
record gains the noted devices and no others. Its phase changes only if there are any, its grant and
its artifact stay, and so do the records of all other workloads. Without a namespace or an artifact,
nothing is asked for and nothing changes. `third_device_stays_down` is a run that ends at the third
of four devices.

The loop is `exists_movesIn`. What is left is the record: noting devices one after another only adds
them, and sets the phase (`Entry.foldl_attach`, `Entry.phase_foldl_attach`).
-/

namespace NetRelocation

open Program

variable {σ : Type}

/-- Noting a device is what changes the phase. -/
theorem Entry.phase_foldl_attach (names : List DeviceName) (entry : Entry) :
    (names.foldl Entry.attach entry).phase =
      if names = [] then entry.phase else .networkAttached := by
  induction names generalizing entry with
  | nil => rfl
  | cons name names ih =>
    rw [List.foldl_cons, ih]
    simp [Entry.attach]

namespace Lifecycle

variable (r : Relocator σ) (w : WorkloadId)

/-- **A workload whose namespace exists.** The devices that are not attached are moved in, in the
order of the artifact and up to the first that fails; the record tells which were moved. -/
theorem moved_in_up_to_first_failure (ns : Option NamespaceRef) (world : World σ) :
    let o := (networkReady w ns).run r world
    let calls := (networkReady w ns).calls r world
    (∀ place entry artifact, ns = some place → world.store.read w = some entry →
      entry.prepared = some artifact →
      ∃ noted after,
        MovesIn place (artifact.devices.filter (·.hostName ∉ entry.attached)) calls o.value noted ∧
        o.world.store.read w = some after ∧
        after.allocation = entry.allocation ∧ after.prepared = some artifact ∧
        (∀ d, d ∈ after.attached ↔ d ∈ entry.attached ∨ d ∈ noted) ∧
        after.phase = (if noted = [] then entry.phase else .networkAttached) ∧
        ((∃ data, o.value = .ok data) → ∀ d ∈ artifact.hostNames, d ∈ after.attached) ∧
        ∀ v, v ≠ w → o.world.store.read v = world.store.read v) ∧
    (ns = none ∨ world.store.artifactOf w = none → calls = [] ∧ o.world = world) := by
  intro o calls
  constructor
  · intro place entry artifact hns hread hprepared
    subst hns
    obtain ⟨noted, hmoves, hstore⟩ :=
      exists_movesIn r w place entry.attached artifact.devices world
    have hcalls : calls = _ := calls_networkReady_of_prepared r w place hread hprepared
    have ho : o = _ := run_networkReady_of_read r w place hread hprepared
    rw [← hcalls, ← ho] at hmoves
    rw [← ho] at hstore
    obtain ⟨hallocation, hartifact, hattached⟩ := Entry.foldl_attach noted entry
    refine ⟨noted, noted.foldl Entry.attach entry, hmoves, ?_, hallocation,
      hartifact.trans hprepared, fun d => (hattached d).trans or_comm,
      Entry.phase_foldl_attach noted entry, ?_, ?_⟩
    · rw [hstore, Store.read_modify_self, hread]
      rfl
    · intro hok d hd
      obtain ⟨data, hdata⟩ := hok
      rw [hdata] at hmoves
      rw [hattached, hmoves.noted_of_ok]
      obtain ⟨device, hdevice, rfl⟩ := List.mem_map.1 hd
      by_cases hin : device.hostName ∈ entry.attached
      · exact .inr hin
      · exact .inl (List.mem_map_of_mem (List.mem_filter.2 ⟨hdevice, by simpa using hin⟩))
    · intro v hv
      rw [hstore, Store.read_modify_ne _ _ hv]
  · intro hidle
    have hempty (entry : Entry) (hread : world.store.read w = some entry) :
        entry.prepared = none ∨ ns = none := by
      rcases hidle with hns | hartifact
      · exact .inr hns
      · exact .inl (by simpa [Store.artifactOf, hread] using hartifact)
    obtain ⟨hworld, hcalls⟩ := run_networkReady_of_idle r w hempty
    exact ⟨hcalls, hworld⟩

/-- The first device is inside already, the third is moved and stays down. It is noted, and the
fourth is not asked for. -/
theorem third_device_stays_down :
    ∃ (w : WorkloadId) (eth0 eth1 eth2 eth3 : DeviceName) (world : World Memory),
      [eth0, eth1, eth2, eth3].map (·.text) = ["eth0", "eth1", "eth2", "eth3"] ∧
      (world.store.artifactOf w).map (·.hostNames) = some [eth0, eth1, eth2, eth3] ∧
      let o := (networkReady w (some (.path "ns/w1"))).run Memory.relocator world
      let calls := (networkReady w (some (.path "ns/w1"))).calls Memory.relocator world
      o.value = .error (.enableFailed "eth2" "ns/w1" "device or resource busy (mock)") ∧
      calls.length = 2 ∧
      ∃ noted after,
        MovesIn (.path "ns/w1")
          ([eth1, eth2, eth3].map fun name => ⟨name, .empty, []⟩) calls o.value noted ∧
        o.world.store.read w = some after ∧
        after.attached.elements = [eth0, eth1, eth2] ∧ after.phase = .networkAttached ∧
        ∀ d, d ∈ after.attached ↔ d = eth0 ∨ d ∈ noted := by
  let w : WorkloadId := ⟨"w1", by decide, by decide, by decide⟩
  let eth0 : DeviceName := ⟨"eth0", by decide, by decide, by decide, by decide⟩
  let eth1 : DeviceName := ⟨"eth1", by decide, by decide, by decide, by decide⟩
  let eth2 : DeviceName := ⟨"eth2", by decide, by decide, by decide, by decide⟩
  let eth3 : DeviceName := ⟨"eth3", by decide, by decide, by decide, by decide⟩
  let granted : List AllocatedDevice := [eth0, eth1, eth2, eth3].map (.plain · "" "")
  let artifact : PreparedArtifact := ⟨[eth0, eth1, eth2, eth3].map (⟨·, .empty, []⟩)⟩
  let entry : Entry := ⟨granted, some artifact, .networkAttached, SortedSet.empty.insert eth0⟩
  let hosts := ((Memory.empty.addHostDevice "eth1").addHostDevice "eth2").addHostDevice "eth3"
  let m := (hosts.addNamespace (.path "ns/w1")).fail .enable "eth2"
  let world : World Memory := ⟨Store.empty.put w entry, m⟩
  obtain ⟨hmoved, -⟩ :=
    moved_in_up_to_first_failure Memory.relocator w (some (.path "ns/w1")) world
  obtain ⟨noted, after, hmoves, hafter, -, -, hattached, -⟩ :=
    hmoved (.path "ns/w1") entry artifact rfl (Store.read_put_self _ _ _) rfl
  have hend :
      ((networkReady w (some (.path "ns/w1"))).run Memory.relocator world).world.store.read w =
        some ⟨granted, some artifact, .networkAttached,
          ((SortedSet.empty.insert eth0).insert eth1).insert eth2⟩ := by
    cbv
  obtain rfl := Option.some.inj (hafter.symm.trans hend)
  refine ⟨w, eth0, eth1, eth2, eth3, world, rfl, rfl, by cbv, by cbv, noted, _, hmoves, hafter,
    by cbv, rfl, fun d => ?_⟩
  rw [hattached]
  simp [entry, SortedSet.mem_insert]

end Lifecycle

end NetRelocation
