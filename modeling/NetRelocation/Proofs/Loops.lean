import NetRelocation.Proofs.Calls

/-!
# The loops that move devices

The devices of a workload are moved one after another, into its namespace (`attachAll`) or back to
the host (`detachAll`). The set of attached devices is read once, before the first move, and decides
which devices are due.

**Moving in** (`MovesIn`). Either all devices that are due are moved in, or one fails and the ones
behind it are not asked for. The devices that were moved are noted. The one that failed is noted as
well if it was moved before it failed.

**Moving out** (`Answered`). Every device that is due is asked for, whatever the answers are. An
answer tells one of three things: the device is back and up, it is back and down, or it is still
inside. The first two are granted requests, the third is a refused one.

Both loops are inductions over the devices (`exists_movesIn`, `exists_answered`). Which requests
they make is read off these.
-/

namespace NetRelocation

open Program

variable {σ : Type}

/-- The call that asks for a device to be moved in, with its answer. -/
def Call.moveIn (ns : NamespaceRef) (device : PreparedDevice)
    (answer : Except Error NetworkDeviceData) : Call :=
  ⟨.attach device.hostName ns device.config device.addresses, answer⟩

/-- The call that asks for a device to be moved back under its name on the host, with its answer. -/
def Call.moveOut (ns : NamespaceRef) (device : PreparedDevice) (answer : Except Error Unit) :
    Call :=
  ⟨.detach ns device.namespaceName (some device.hostName), answer⟩

namespace Lifecycle

/-! ## What moving in comes to -/

/-- What moving in comes to for the devices that are due: the calls, the result, and the names that
are noted as attached. -/
inductive MovesIn (ns : NamespaceRef) : List PreparedDevice → List Call →
    Except Error (List NetworkDeviceData) → List DeviceName → Prop
  /-- Every device was moved in. -/
  | all (placed : List (PreparedDevice × NetworkDeviceData)) :
      MovesIn ns (placed.map (·.1)) (placed.map fun p => .moveIn ns p.1 (.ok p.2))
        (.ok (placed.map (·.2))) (placed.map (·.1.hostName))
  /-- Some devices were moved in, and the next one failed. -/
  | upTo (placed : List (PreparedDevice × NetworkDeviceData)) (device : PreparedDevice) (e : Error)
      (others : List PreparedDevice) :
      MovesIn ns (placed.map (·.1) ++ device :: others)
        ((placed.map fun p => .moveIn ns p.1 (.ok p.2)) ++ [.moveIn ns device (.error e)])
        (.error e)
        (placed.map (·.1.hostName) ++ if e.deviceMoved then [device.hostName] else [])

section

variable {ns : NamespaceRef} {due : List PreparedDevice} {calls : List Call}
  {result : Except Error (List NetworkDeviceData)} {noted : List DeviceName}

/-- One more device that was moved in, before the others. -/
theorem MovesIn.cons (h : MovesIn ns due calls result noted) (device : PreparedDevice)
    (data : NetworkDeviceData) :
    MovesIn ns (device :: due) (.moveIn ns device (.ok data) :: calls) (result.map (data :: ·))
      (device.hostName :: noted) := by
  cases h with
  | all placed => exact .all ((device, data) :: placed)
  | upTo placed failed e others => exact .upTo ((device, data) :: placed) failed e others

/-- The first device failed. -/
theorem movesIn_error (ns : NamespaceRef) (device : PreparedDevice) (others : List PreparedDevice)
    (e : Error) :
    MovesIn ns (device :: others) [.moveIn ns device (.error e)] (.error e)
      (if e.deviceMoved then [device.hostName] else []) :=
  .upTo [] device e others

/-- Where moving in succeeds, every device that is due is noted. -/
theorem MovesIn.noted_of_ok {data : List NetworkDeviceData}
    (h : MovesIn ns due calls (.ok data) noted) : noted = due.map (·.hostName) := by
  cases h with
  | all placed => simp

/-- Only devices that are due are asked for. -/
theorem MovesIn.exists_device (h : MovesIn ns due calls result noted) {call : Call}
    (hcall : call ∈ calls) : ∃ device ∈ due, ∃ answer, call = .moveIn ns device answer := by
  cases h with
  | all placed =>
    obtain ⟨p, hp, rfl⟩ := List.mem_map.1 hcall
    exact ⟨p.1, List.mem_map_of_mem hp, _, rfl⟩
  | upTo placed device e others =>
    rcases List.mem_append.1 hcall with hcall | hcall
    · obtain ⟨p, hp, rfl⟩ := List.mem_map.1 hcall
      exact ⟨p.1, List.mem_append_left _ (List.mem_map_of_mem hp), _, rfl⟩
    · exact ⟨device, List.mem_append_right _ List.mem_cons_self, _, List.mem_singleton.1 hcall⟩

end

variable (r : Relocator σ) (w : WorkloadId) (ns : NamespaceRef) (attached : SortedSet DeviceName)

/-- **Moving in** concerns what is not attached, and notes what was moved. -/
theorem exists_movesIn (devices : List PreparedDevice) (world : World σ) :
    ∃ noted, MovesIn ns (devices.filter (·.hostName ∉ attached))
        ((attachAll w ns attached devices).calls r world)
        ((attachAll w ns attached devices).run r world).value noted ∧
      ((attachAll w ns attached devices).run r world).world.store =
        world.store.modify w (noted.foldl Entry.attach) := by
  induction devices generalizing world with
  | nil => exact ⟨[], .all [], (world.store.modify_id w).symm⟩
  | cons device devices ih =>
    by_cases ha : device.hostName ∈ attached
    · rw [List.filter_cons_of_neg (by simpa using ha), attachAll, if_pos ha]
      exact ih world
    · rw [List.filter_cons_of_pos (by simpa using ha)]
      simp only [attachAll, if_neg ha, run, calls, Outcome.value_after, Outcome.world_after]
      cases (r.answer (.attach device.hostName ns device.config device.addresses)
        world.relocator).result with
      | error e =>
        have hfirst := movesIn_error ns device (devices.filter (·.hostName ∉ attached)) e
        cases he : e.deviceMoved with
        | true =>
          simp only [he, if_true] at hfirst ⊢
          exact ⟨_, hfirst, rfl⟩
        | false =>
          simp only [he, Bool.false_eq_true, if_false] at hfirst ⊢
          exact ⟨_, hfirst, (world.store.modify_id w).symm⟩
      | ok data =>
        simp only [run, calls, run_bind, calls_bind, pure_eq, List.append_nil, Outcome.value_after,
          Outcome.world_after]
        obtain ⟨noted, hmoves, hstore⟩ := ih
          { world with
            store := world.store.markAttached w device.hostName
            relocator := (r.answer (.attach device.hostName ns device.config device.addresses)
              world.relocator).state }
        refine ⟨device.hostName :: noted, hmoves.cons device data, ?_⟩
        rw [StoreAction.apply, hstore, Store.markAttached, Store.modify_modify]
        rfl

/-- Only devices that are not attached are moved in. -/
theorem mem_calls_attachAll {devices : List PreparedDevice} {world : World σ} {call : Call}
    (h : call ∈ (attachAll w ns attached devices).calls r world) :
    ∃ device ∈ devices, device.hostName ∉ attached ∧
      call.request = .attach device.hostName ns device.config device.addresses := by
  obtain ⟨noted, hmoves, -⟩ := exists_movesIn r w ns attached devices world
  obtain ⟨device, hdue, answer, rfl⟩ := hmoves.exists_device h
  obtain ⟨hdevice, hout⟩ := List.mem_filter.1 hdue
  exact ⟨device, hdevice, by simpa using hout, rfl⟩

end Lifecycle

/-! ## Requests to move out -/

/-- The devices that were asked for, each with the answer. -/
abbrev Answered : Type := List (PreparedDevice × Except Error Unit)

namespace Answered

variable (answered : Answered)

def calls (ns : NamespaceRef) : List Call := answered.map fun p => .moveOut ns p.1 p.2

/-- What came of the requests. -/
def outcomes : List DetachOutcome := answered.map fun p => ⟨p.1.hostName, p.2⟩

/-- The requests that moved their device. -/
def granted : Answered := answered.filter fun p => moved p.2

/-- The requests that left their device inside. -/
def refused : Answered := answered.filter fun p => !moved p.2

def names : List DeviceName := answered.map (·.1.hostName)

/-- The first request takes its device out of the record if it moved it. -/
theorem foldl_detach_granted_cons (p : PreparedDevice × Except Error Unit) (entry : Entry) :
    (granted (p :: answered)).names.foldl Entry.detach entry =
      answered.granted.names.foldl Entry.detach
        (if moved p.2 = true then entry.detach p.1.hostName else entry) := by
  cases h : moved p.2 <;> simp [granted, names, h]

end Answered

namespace Lifecycle

variable (r : Relocator σ) (w : WorkloadId) (ns : NamespaceRef) (attached : SortedSet DeviceName)

/-! ## What moving out comes to -/

/-- What is done after one device was taken back. -/
def noteDetached (w : WorkloadId) (outcome : DetachOutcome) : Program Unit := do
  if outcome.returned then ofAction (.markDetached w outcome.device)
  match outcome.result with
  | .ok _ => done ()
  | .error e => ofNotice (.detachFailed w outcome.device outcome.returned e)

theorem run_noteDetached (outcome : DetachOutcome) (world : World σ) :
    ((noteDetached w outcome).run r world).world =
      { world with
        store := world.store.modify w fun entry =>
          if outcome.returned then entry.detach outcome.device else entry } := by
  obtain ⟨device, _ | _⟩ := outcome
  · rename_i e
    cases e <;> simp [noteDetached, DetachOutcome.returned, Error.deviceMoved] <;> rfl
  · rfl

theorem calls_noteDetached (outcome : DetachOutcome) (world : World σ) :
    (noteDetached w outcome).calls r world = [] := by
  obtain ⟨device, e | _⟩ := outcome
  · cases e <;> rfl
  · rfl

/-- One device after another. -/
theorem detachAll_cons_of_mem {device : PreparedDevice} (h : device.hostName ∈ attached)
    (devices : List PreparedDevice) :
    detachAll w ns attached (device :: devices) =
      (note (.movingOut w device.namespaceName device.hostName) <|
        relocate (.detach ns device.namespaceName (some device.hostName)) fun result => do
          noteDetached w ⟨device.hostName, result⟩
          let outcomes ← detachAll w ns attached devices
          return ⟨device.hostName, result⟩ :: outcomes) := by
  rw [detachAll, if_pos h]
  congr 2
  funext result
  obtain e | _ := result
  · cases e <;> rfl
  · rfl

/-- **Moving out** asks for every device that is attached, and takes out of the record what came
back. -/
theorem exists_answered (devices : List PreparedDevice) (world : World σ) :
    let o := (detachAll w ns attached devices).run r world
    ∃ answered : Answered, answered.map (·.1) = devices.filter (·.hostName ∈ attached) ∧
      (detachAll w ns attached devices).calls r world = answered.calls ns ∧
      o.value = answered.outcomes ∧
      o.world.store = world.store.modify w (answered.granted.names.foldl Entry.detach) := by
  induction devices generalizing world with
  | nil => exact ⟨[], rfl, rfl, rfl, (world.store.modify_id w).symm⟩
  | cons device devices ih =>
    by_cases ha : device.hostName ∈ attached
    · rw [List.filter_cons_of_pos (by simpa using ha)]
      simp only [detachAll_cons_of_mem w ns attached ha, run, calls, run_bind, calls_bind, pure_eq,
        Outcome.value_after, Outcome.world_after, run_noteDetached, calls_noteDetached,
        List.nil_append, List.append_nil]
      generalize r.answer (.detach ns device.namespaceName (some device.hostName))
        world.relocator = first
      obtain ⟨answered, hdue, hcalls, hvalue, hstore⟩ := ih
        { store := world.store.modify w fun entry =>
            if (DetachOutcome.returned ⟨device.hostName, first.result⟩) = true then
              entry.detach device.hostName else entry
          relocator := first.state }
      refine ⟨(device, first.result) :: answered, congrArg (device :: ·) hdue, ?_, ?_, ?_⟩
      · rw [hcalls]
        rfl
      · rw [hvalue]
        rfl
      · rw [hstore, Store.modify_modify]
        congr 1
        funext entry
        rw [returned_eq_moved]
        exact (Answered.foldl_detach_granted_cons answered (device, first.result) entry).symm
    · rw [detachAll, if_neg ha, List.filter_cons_of_neg (by simpa using ha)]
      exact ih world

/-- Every device that is attached is asked back under the name on the host. -/
theorem mem_calls_detachAll {devices : List PreparedDevice} {world : World σ} {call : Call}
    (h : call ∈ (detachAll w ns attached devices).calls r world) :
    ∃ device ∈ devices, device.hostName ∈ attached ∧
      call.request = .detach ns device.namespaceName (some device.hostName) := by
  obtain ⟨answered, hdue, hcalls, -⟩ := exists_answered r w ns attached devices world
  rw [hcalls] at h
  obtain ⟨p, hp, rfl⟩ := List.mem_map.1 h
  have hin : p.1 ∈ devices.filter (·.hostName ∈ attached) := hdue ▸ List.mem_map_of_mem hp
  obtain ⟨hdevice, hattached⟩ := List.mem_filter.1 hin
  exact ⟨p.1, hdevice, by simpa using hattached, rfl⟩

/-- Every device that is attached is asked for. -/
theorem exists_call_detachAll {devices : List PreparedDevice} {device : PreparedDevice}
    (hdevice : device ∈ devices) (hattached : device.hostName ∈ attached) (world : World σ) :
    ∃ call ∈ (detachAll w ns attached devices).calls r world,
      call.request = .detach ns device.namespaceName (some device.hostName) := by
  obtain ⟨answered, hdue, hcalls, -⟩ := exists_answered r w ns attached devices world
  have hin : device ∈ answered.map (·.1) := by
    rw [hdue]
    exact List.mem_filter.2 ⟨hdevice, by simpa using hattached⟩
  obtain ⟨p, hp, rfl⟩ := List.mem_map.1 hin
  rw [hcalls]
  exact ⟨_, List.mem_map_of_mem hp, rfl⟩

end Lifecycle

end NetRelocation
