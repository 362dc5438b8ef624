import NetRelocation.Proofs.Loops

/-!
# What moving devices leaves in the record

The loops that move the devices of a workload note each device that changed its namespace. What they
leave in the record is therefore decided by their calls: it is the record they started from, changed
by what each call tells (`Entry.afterCalls`), and no other record changes (`store_attachAll`,
`store_detachAll`). Each operation of the coordinator on a workload is brought to that form.
-/

namespace NetRelocation

/-! ## What a call tells -/

namespace Entry

def afterCall (entry : Entry) : Call → Entry
  | ⟨.attach device _ _ _, response⟩ => if moved response then entry.attach device else entry
  | ⟨.detach _ _ (some device), response⟩ => if moved response then entry.detach device else entry
  | ⟨.detach _ _ none, _⟩ => entry

/-- The record after some calls. -/
def afterCalls (entry : Entry) (calls : List Call) : Entry := calls.foldl afterCall entry

@[simp] theorem afterCalls_nil (entry : Entry) : entry.afterCalls [] = entry := rfl

@[simp] theorem afterCalls_cons (entry : Entry) (call : Call) (calls : List Call) :
    entry.afterCalls (call :: calls) = (entry.afterCall call).afterCalls calls := rfl

theorem prepared_afterCall (entry : Entry) (call : Call) :
    (entry.afterCall call).prepared = entry.prepared := by
  obtain ⟨request, response⟩ := call
  rcases request with ⟨device, _, _, _⟩ | ⟨_, _, _ | device⟩
  · simp only [afterCall]; split <;> rfl
  · rfl
  · simp only [afterCall]; split <;> rfl

@[simp] theorem prepared_afterCalls (entry : Entry) (calls : List Call) :
    (entry.afterCalls calls).prepared = entry.prepared := by
  induction calls generalizing entry with
  | nil => rfl
  | cons call calls ih => rw [afterCalls_cons, ih, prepared_afterCall]

theorem foldl_attach (names : List DeviceName) (entry : Entry) :
    (names.foldl attach entry).allocation = entry.allocation ∧
      (names.foldl attach entry).prepared = entry.prepared ∧
      ∀ d, d ∈ (names.foldl attach entry).attached ↔ d ∈ names ∨ d ∈ entry.attached := by
  induction names generalizing entry with
  | nil => simp
  | cons name names ih =>
    obtain ⟨hallocation, hprepared, hattached⟩ := ih (entry.attach name)
    refine ⟨hallocation, hprepared, fun d => ?_⟩
    rw [List.foldl_cons, hattached, attach, SortedSet.mem_insert, List.mem_cons, or_left_comm,
      or_assoc]

theorem foldl_detach (names : List DeviceName) (entry : Entry) :
    (names.foldl detach entry).allocation = entry.allocation ∧
      (names.foldl detach entry).prepared = entry.prepared ∧
      ∀ d, d ∈ (names.foldl detach entry).attached ↔ d ∉ names ∧ d ∈ entry.attached := by
  induction names generalizing entry with
  | nil => simp
  | cons name names ih =>
    obtain ⟨hallocation, hprepared, hattached⟩ := ih (entry.detach name)
    refine ⟨hallocation, hprepared, fun d => ?_⟩
    rw [List.foldl_cons, hattached, detach, SortedSet.mem_erase, List.mem_cons, not_or]
    exact ⟨fun ⟨hnames, hd, hne⟩ => ⟨⟨hne, hnames⟩, hd⟩, fun ⟨⟨hne, hnames⟩, hd⟩ =>
      ⟨hnames, hd, hne⟩⟩

end Entry

/-- The devices that go out of the record are those that the calls tell. -/
theorem Answered.afterCalls_calls (answered : Answered) (ns : NamespaceRef) (entry : Entry) :
    entry.afterCalls (answered.calls ns) = answered.granted.names.foldl Entry.detach entry := by
  induction answered generalizing entry with
  | nil => rfl
  | cons p answered ih =>
    rw [foldl_detach_granted_cons, ← ih]
    rfl

namespace Lifecycle

open Program

variable {σ : Type} (r : Relocator σ) (w : WorkloadId) (ns : NamespaceRef)
  (attached : SortedSet DeviceName)

/-! ## Preparing -/

theorem run_prepare_error {devices : List AllocatedDevice} {e : Error}
    (h : PreparedArtifact.ofAllocation devices = .error e) (world : World σ) :
    (prepare w devices).run r world = ⟨.error e, [.prepareFailed w e], world⟩ := by
  simp [prepare, h, run, Outcome.after]

theorem run_prepare_ok {devices : List AllocatedDevice} {artifact : PreparedArtifact}
    (h : PreparedArtifact.ofAllocation devices = .ok artifact) (world : World σ) :
    (prepare w devices).run r world =
      ⟨.ok artifact,
        (world.store.lost w artifact).map (.forgotten w) ++
          [.prepared w artifact.devices.length],
        { world with store := world.store.recordPrepared w devices artifact }⟩ := by
  simp [prepare, h, run, run_bind, StoreAction.answer, StoreAction.apply, Outcome.after]

theorem calls_prepare (devices : List AllocatedDevice) (world : World σ) :
    (prepare w devices).calls r world = [] := by
  unfold prepare
  cases PreparedArtifact.ofAllocation devices with
  | error e => rfl
  | ok artifact => simp [calls, calls_bind]

/-! ## Moving in and out -/

/-- The names that are noted are those that the calls tell. -/
theorem MovesIn.afterCalls {due : List PreparedDevice} {calls : List Call}
    {result : Except Error (List NetworkDeviceData)} {noted : List DeviceName}
    (h : MovesIn ns due calls result noted) (entry : Entry) :
    entry.afterCalls calls = noted.foldl Entry.attach entry := by
  cases h with
  | all placed =>
    rw [Entry.afterCalls, List.foldl_map, List.foldl_map]
    rfl
  | upTo placed device e others =>
    rw [Entry.afterCalls, List.foldl_append, List.foldl_append, List.foldl_map, List.foldl_map]
    cases he : e.deviceMoved <;>
      simp [Entry.afterCall, Call.moveIn, moved, he]

theorem store_attachAll (devices : List PreparedDevice) (world : World σ) :
    ((attachAll w ns attached devices).run r world).world.store =
      world.store.modify w (·.afterCalls ((attachAll w ns attached devices).calls r world)) := by
  obtain ⟨noted, hmoves, hstore⟩ := exists_movesIn r w ns attached devices world
  rw [hstore]
  congr 1
  funext entry
  exact (hmoves.afterCalls ns entry).symm

theorem store_detachAll (devices : List PreparedDevice) (world : World σ) :
    ((detachAll w ns attached devices).run r world).world.store =
      world.store.modify w (·.afterCalls ((detachAll w ns attached devices).calls r world)) := by
  obtain ⟨answered, -, hcalls, -, hstore⟩ := exists_answered r w ns attached devices world
  rw [hstore, hcalls]
  congr 1
  funext entry
  exact (answered.afterCalls_calls ns entry).symm

/-! ## Whole operations -/

theorem store_unprepare (world : World σ) :
    ((unprepare w).run r world).world.store = world.store.clearPrepared w := by
  simp only [unprepare, run]
  split <;> rfl

theorem calls_unprepare (world : World σ) : (unprepare w).calls r world = [] := by
  simp only [unprepare, calls]
  split <;> rfl

theorem store_removed (world : World σ) :
    ((removed w).run r world).world.store = world.store.purge w := by
  simp only [removed, run]
  split <;> rfl

theorem calls_removed (world : World σ) : (removed w).calls r world = [] := by
  simp only [removed, calls]
  split <;> rfl

theorem run_networkReady_of_read {world : World σ} {entry : Entry} {artifact : PreparedArtifact}
    (hread : world.store.read w = some entry) (hprepared : entry.prepared = some artifact) :
    (networkReady w (some ns)).run r world =
      (attachAll w ns entry.attached artifact.devices).run r world := by
  simp [networkReady, run, StoreAction.answer, StoreAction.apply, hread, hprepared]

theorem run_stopping_of_read {world : World σ} {entry : Entry} {artifact : PreparedArtifact}
    (hread : world.store.read w = some entry) (hprepared : entry.prepared = some artifact) :
    (stopping w (some ns)).run r world =
      let o := (detachAll w ns entry.attached artifact.devices).run r world
      ⟨⟨o.value⟩, o.notices, { o.world with store := o.world.store.markNetworkDetached w }⟩ := by
  simp [stopping, run, run_bind, StoreAction.answer, StoreAction.apply, hread, hprepared,
    Outcome.after]

theorem calls_networkReady_of_prepared {world : World σ} {entry : Entry}
    {artifact : PreparedArtifact}
    (hread : world.store.read w = some entry) (hprepared : entry.prepared = some artifact) :
    (networkReady w (some ns)).calls r world =
      (attachAll w ns entry.attached artifact.devices).calls r world := by
  simp [networkReady, calls, StoreAction.answer, StoreAction.apply, hread, hprepared]

theorem calls_stopping_of_prepared {world : World σ} {entry : Entry} {artifact : PreparedArtifact}
    (hread : world.store.read w = some entry) (hprepared : entry.prepared = some artifact) :
    (stopping w (some ns)).calls r world =
      (detachAll w ns entry.attached artifact.devices).calls r world := by
  simp [stopping, calls, calls_bind, StoreAction.answer, StoreAction.apply, hread, hprepared]

theorem store_networkReady (ns : Option NamespaceRef) (world : World σ) :
    ((networkReady w ns).run r world).world.store =
      world.store.modify w (·.afterCalls ((networkReady w ns).calls r world)) := by
  cases ns with
  | none => simp [networkReady, run, calls]
  | some ns =>
    simp only [networkReady, run, calls, StoreAction.answer, StoreAction.apply]
    cases hw : world.store.read w with
    | none => simp [run, calls]
    | some entry =>
      cases hp : entry.prepared with
      | none => simp [hp, run, calls]
      | some artifact => simpa [hp] using store_attachAll r w ns entry.attached _ world

/-- Nothing is moved in where there is no artifact or no namespace. -/
theorem run_networkReady_of_idle {ns : Option NamespaceRef} {world : World σ}
    (h : ∀ entry, world.store.read w = some entry → entry.prepared = none ∨ ns = none) :
    ((networkReady w ns).run r world).world = world ∧ (networkReady w ns).calls r world = [] := by
  cases ns with
  | none => exact ⟨rfl, rfl⟩
  | some place =>
    simp only [networkReady, run, calls, StoreAction.answer, StoreAction.apply]
    cases hread : world.store.read w with
    | none => exact ⟨rfl, rfl⟩
    | some entry =>
      have hprepared := (h entry hread).resolve_right (Option.some_ne_none place)
      simp [hprepared, run, calls]

theorem calls_networkReady_of_read {world : World σ} (h : world.store.read w = none)
    (ns : Option NamespaceRef) : (networkReady w ns).calls r world = [] := by
  cases ns with
  | none => rfl
  | some ns => simp [networkReady, calls, StoreAction.answer, h]

/-- Only devices of the artifact are moved in. -/
theorem mem_calls_networkReady {ns : Option NamespaceRef} {world : World σ} {call : Call}
    (h : call ∈ (networkReady w ns).calls r world) :
    ∃ entry artifact device place, world.store.read w = some entry ∧
      entry.prepared = some artifact ∧ device ∈ artifact.devices ∧
      call.request = .attach device.hostName place device.config device.addresses := by
  cases ns with
  | none => simp [networkReady, calls] at h
  | some ns =>
    simp only [networkReady, calls, StoreAction.answer, StoreAction.apply] at h
    cases hw : world.store.read w with
    | none => simp [hw, calls] at h
    | some entry =>
      cases hp : entry.prepared with
      | none => simp [hw, hp, calls] at h
      | some artifact =>
        simp only [hw, hp] at h
        obtain ⟨device, hd, -, hc⟩ := mem_calls_attachAll r w ns entry.attached h
        exact ⟨entry, artifact, device, ns, rfl, hp, hd, hc⟩

/-- The record after its devices were taken back. -/
theorem store_stopping (ns : Option NamespaceRef) (world : World σ) :
    ((stopping w ns).run r world).world.store =
      world.store.modify w fun entry =>
        if world.store.isPrepared w && ns.isSome then
          (entry.afterCalls ((stopping w ns).calls r world)).leave
        else entry.afterCalls ((stopping w ns).calls r world) := by
  simp only [stopping, run, calls, StoreAction.answer, StoreAction.apply, Store.isPrepared]
  cases hw : world.store.read w with
  | none => simp [run, calls]
  | some entry =>
    cases hp : entry.prepared with
    | none => simp [hp, run, calls]
    | some artifact =>
      cases ns with
      | none => simp [hp, run, calls]
      | some ns =>
        simp [hp, run, calls, run_bind, calls_bind, store_detachAll, StoreAction.apply,
          Store.markNetworkDetached, Store.modify_modify]

/-- Only devices of the artifact are taken back. -/
theorem mem_calls_stopping {ns : Option NamespaceRef} {world : World σ} {call : Call}
    (h : call ∈ (stopping w ns).calls r world) :
    ∃ entry artifact device place, world.store.read w = some entry ∧
      entry.prepared = some artifact ∧ device ∈ artifact.devices ∧
      call.request = .detach place device.namespaceName (some device.hostName) := by
  simp only [stopping, calls, StoreAction.answer, StoreAction.apply] at h
  cases hw : world.store.read w with
  | none => simp [hw, calls] at h
  | some entry =>
    cases hp : entry.prepared with
    | none => simp [hw, hp, calls] at h
    | some artifact =>
      cases ns with
      | none => simp [hw, hp, calls] at h
      | some ns =>
        simp only [hw, hp, calls, calls_bind, List.append_nil] at h
        obtain ⟨device, hd, -, hc⟩ := mem_calls_detachAll r w ns entry.attached h
        exact ⟨entry, artifact, device, ns, rfl, hp, hd, hc⟩

/-- Nothing is taken back for a workload without a record. -/
theorem calls_stopping_of_read {world : World σ} (h : world.store.read w = none)
    (ns : Option NamespaceRef) : (stopping w ns).calls r world = [] := by
  simp [stopping, calls, StoreAction.answer, h]

end Lifecycle

end NetRelocation
