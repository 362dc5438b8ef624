import NetRelocation.Proofs.InsideNames

/-!
# Events that are delivered twice

A source of events may deliver an event again when it is not sure that the first delivery arrived.
The coordinator keeps no list of what it has handled. It gets by with the record: what the first
delivery did is noted there, and the second finds nothing left to do.

**Theorem (`delivered_twice`).** In a run of events in which every request is granted, let any one
event be delivered twice in a row. The second delivery is answered as the first and asks for nothing.
All other events are answered as before, with the same requests, and the record ends as before.

The run is cut at the event, so all that is to be shown is that an event repeats itself at any moment
(`repeats_handle`). Operations on the record come to the same when they are done twice. Moving in
skips the devices that are attached, and after the first time all of them are
(`repeats_networkReady`); moving out skips those that are not (`stopping_again`).
-/

namespace NetRelocation

open Program

variable {α β σ : Type}

/-! ## The record -/

theorem SortedSet.filter_filter_self {κ : Type} [KeyOrder κ] (s : SortedSet κ) (p : κ → Bool) :
    (s.filter p).filter p = s.filter p := by
  simp [filter, List.filter_filter]

namespace Entry

theorem prepare_prepare (entry : Entry) (devices : List AllocatedDevice)
    (artifact : PreparedArtifact) :
    (entry.prepare devices artifact).prepare devices artifact = entry.prepare devices artifact := by
  simp only [prepare, SortedSet.filter_filter_self]
  cases entry.phase <;> rfl

theorem unprepare_unprepare (entry : Entry) : entry.unprepare.unprepare = entry.unprepare := by
  simp only [unprepare]
  split <;> simp_all

theorem leave_leave (entry : Entry) : entry.leave.leave = entry.leave := rfl

end Entry

namespace Store

theorem recordPrepared_again (store : Store) (w : WorkloadId) (devices : List AllocatedDevice)
    (artifact : PreparedArtifact) :
    (store.recordPrepared w devices artifact).recordPrepared w devices artifact =
      store.recordPrepared w devices artifact := by
  have hnew : (store.recordPrepared w devices artifact).entryOrNew w =
      (store.entryOrNew w).prepare devices artifact := by
    rw [entryOrNew, recordPrepared, read_put_self, Option.getD_some]
  rw [recordPrepared, hnew, Entry.prepare_prepare, recordPrepared]
  simp [put]

theorem clearPrepared_again (store : Store) (w : WorkloadId) :
    (store.clearPrepared w).clearPrepared w = store.clearPrepared w := by
  simp only [clearPrepared, modify_modify, Entry.unprepare_unprepare]

theorem markNetworkDetached_again (store : Store) (w : WorkloadId) :
    (store.markNetworkDetached w).markNetworkDetached w = store.markNetworkDetached w := by
  simp only [markNetworkDetached, modify_modify, Entry.leave_leave]

theorem purge_again (store : Store) (w : WorkloadId) :
    (store.purge w).purge w = store.purge w := by
  have h : (store.entries.erase w).erase w = store.entries.erase w :=
    Table.erase_of_get? (Table.get?_erase_self _ _)
  simp only [purge, h]

end Store

/-! ## Programs that repeat themselves -/

theorem World.ext {a b : World σ} (hstore : a.store = b.store)
    (hrelocator : a.relocator = b.relocator) : a = b := by
  cases a; cases b; simp_all

/-- A request that was granted. -/
def Call.Succeeds (call : Call) : Prop := ∃ a, call.response = .ok a

theorem Call.succeeds_iff {call : Call} : call.Succeeds ↔ call.response.isOk = true := by
  obtain ⟨request, e | a⟩ := call
  · simp [Succeeds, Except.isOk, Except.toBool]
  · simp [Succeeds, Except.isOk, Except.toBool]

theorem Call.Succeeds.moved {call : Call} (h : call.Succeeds) : moved call.response = true := by
  obtain ⟨a, ha⟩ := h
  rw [ha]
  rfl

/-- Run again right after its end, a program answers the same, asks for nothing and changes
nothing. -/
structure Repeats (r : Relocator σ) (p : Program α) (world : World σ) : Prop where
  value : (p.run r (p.run r world).world).value = (p.run r world).value
  calls : p.calls r (p.run r world).world = []
  world : (p.run r (p.run r world).world).world = (p.run r world).world

namespace Repeats

variable {r : Relocator σ} {p : Program α} {world : World σ}

/-- What did nothing does nothing again. -/
theorem of_idle (hworld : (p.run r world).world = world) (hcalls : p.calls r world = []) :
    Repeats r p world :=
  ⟨by rw [hworld], by rw [hworld, hcalls], by rw [hworld, hworld]⟩

theorem note (h : Repeats r p world) (notice : Notice) : Repeats r (.note notice p) world :=
  ⟨h.value, h.calls, h.world⟩

/-- What is made of the answer of a program is made again. -/
theorem map (h : Repeats r p world) (g : α → β) : Repeats r (p >>= fun a => done (g a)) world := by
  refine ⟨?_, ?_, ?_⟩
  · simp only [run_bind, Outcome.value_after, Outcome.world_after, run, h.value]
  · simp only [run_bind, calls_bind, Outcome.world_after, run, Program.calls, h.calls,
      List.append_nil]
  · simp only [run_bind, Outcome.world_after, run, h.world]

/-- Of a program that finds nothing to do, only what it answers may change. Where that is merely
reported, nothing changes. -/
theorem bind_report {f : α → Program β} {b : β}
    (hworld : (p.run r (p.run r world).world).world = (p.run r world).world)
    (hcalls : p.calls r (p.run r world).world = [])
    (hf : ∀ a world, (f a).calls r world = [] ∧ ∃ notices, (f a).run r world = ⟨b, notices, world⟩) :
    Repeats r (p >>= f) world := by
  have hvalue (a : α) (world : World σ) : ((f a).run r world).value = b := by
    obtain ⟨-, notices, h⟩ := hf a world
    rw [h]
  have hsame (a : α) (world : World σ) : ((f a).run r world).world = world := by
    obtain ⟨-, notices, h⟩ := hf a world
    rw [h]
  refine ⟨?_, ?_, ?_⟩
  · simp only [run_bind, Outcome.value_after, hvalue]
  · simp only [run_bind, calls_bind, Outcome.world_after, hsame, hcalls, (hf _ _).1,
      List.append_nil]
  · simp only [run_bind, Outcome.world_after, hsame, hworld]

end Repeats

namespace Lifecycle

variable (r : Relocator σ) (w : WorkloadId)

/-! ## Grants, releases, removals -/

theorem repeats_prepare (devices : List AllocatedDevice) (world : World σ) :
    Repeats r (prepare w devices) world := by
  cases ha : PreparedArtifact.ofAllocation devices with
  | error e => exact .of_idle (by rw [run_prepare_error r w ha]) (calls_prepare r w devices world)
  | ok artifact =>
    refine ⟨?_, calls_prepare r w devices _, ?_⟩
    · rw [run_prepare_ok r w ha, run_prepare_ok r w ha]
    · simp only [run_prepare_ok r w ha, Store.recordPrepared_again]

theorem relocator_unprepare (world : World σ) :
    ((unprepare w).run r world).world.relocator = world.relocator := by
  simp only [unprepare, run]
  split <;> rfl

theorem relocator_removed (world : World σ) :
    ((removed w).run r world).world.relocator = world.relocator := by
  simp only [removed, run]
  split <;> rfl

theorem repeats_unprepare (world : World σ) : Repeats r (unprepare w) world := by
  refine ⟨rfl, calls_unprepare r w _, World.ext ?_ (relocator_unprepare r w _)⟩
  rw [store_unprepare, store_unprepare, Store.clearPrepared_again]

theorem repeats_removed (world : World σ) : Repeats r (removed w) world := by
  refine ⟨rfl, calls_removed r w _, World.ext ?_ (relocator_removed r w _)⟩
  rw [store_removed, store_removed, Store.purge_again]

/-! ## Moving in -/

variable (ns : NamespaceRef) (attached : SortedSet DeviceName)

/-- Where every request is granted, moving in succeeds and places every device that was outside. -/
theorem attachAll_of_succeeds {devices : List PreparedDevice} {world : World σ}
    (h : ∀ call ∈ (attachAll w ns attached devices).calls r world, call.Succeeds) :
    (∃ data, ((attachAll w ns attached devices).run r world).value = .ok data) ∧
      ∀ device ∈ devices, device.hostName ∉ attached →
        ∃ call ∈ (attachAll w ns attached devices).calls r world,
          call.Places device.hostName device.namespaceName := by
  obtain ⟨noted, hmoves, -⟩ := exists_movesIn r w ns attached devices world
  generalize hdue : devices.filter (·.hostName ∉ attached) = due at hmoves
  generalize (attachAll w ns attached devices).calls r world = calls at h hmoves ⊢
  generalize ((attachAll w ns attached devices).run r world).value = result at hmoves ⊢
  cases hmoves with
  | all placed =>
    refine ⟨⟨_, rfl⟩, fun device hdevice hout => ?_⟩
    have hin : device ∈ placed.map (·.1) := by
      rw [← hdue]
      exact List.mem_filter.2 ⟨hdevice, by simpa using hout⟩
    obtain ⟨p, hp, rfl⟩ := List.mem_map.1 hin
    exact ⟨_, List.mem_map_of_mem hp, ns, p.1.config, p.1.addresses, rfl, rfl, rfl⟩
  | upTo placed device e others =>
    obtain ⟨data, hdata⟩ := h _ (List.mem_append_right _ (List.mem_singleton.2 rfl))
    cases hdata

theorem attachAll_of_attached {devices : List PreparedDevice}
    (h : ∀ device ∈ devices, device.hostName ∈ attached) :
    attachAll w ns attached devices = done (.ok []) := by
  induction devices with
  | nil => rfl
  | cons device devices ih =>
    rw [attachAll, if_pos (h device List.mem_cons_self)]
    exact ih fun d hd => h d (List.mem_cons_of_mem _ hd)

/-- Once every request of moving in was granted, every device of the artifact is attached. -/
theorem attached_of_succeeds {entry : Entry} {devices : List PreparedDevice} {world : World σ}
    (h : ∀ call ∈ (attachAll w ns entry.attached devices).calls r world, call.Succeeds) :
    ∀ device ∈ devices, device.hostName ∈
      (entry.afterCalls ((attachAll w ns entry.attached devices).calls r world)).attached := by
  intro device hdevice
  refine (Set.ext_iff.1 (attached_afterCalls entry _) device.hostName).2 ?_
  rw [mem_foldl_held_of_places fun call hcall => ?_]
  · by_cases hin : device.hostName ∈ entry.attached
    · exact .inl hin
    · obtain ⟨call, hcall, hplaces⟩ := (attachAll_of_succeeds r w ns _ h).2 device hdevice hin
      exact .inr ⟨call, hcall, device.namespaceName, hplaces⟩
  · obtain ⟨d, -, -, hrequest⟩ := mem_calls_attachAll r w ns _ hcall
    exact ⟨_, _, _, _, hrequest⟩

/-- **Moving in twice.** Where every request is granted, the second time there is nothing to move. -/
theorem repeats_networkReady (ns : Option NamespaceRef) {world : World σ}
    (h : ∀ call ∈ (networkReady w ns).calls r world, call.Succeeds) :
    Repeats r (networkReady w ns >>= fun result => done (result.map fun _ => ())) world := by
  by_cases hidle : ∀ entry, world.store.read w = some entry → entry.prepared = none ∨ ns = none
  · obtain ⟨hworld, hcalls⟩ := run_networkReady_of_idle r w hidle
    exact .map (.of_idle hworld hcalls) _
  · push Not at hidle
    obtain ⟨entry, hread, hsome, hns⟩ := hidle
    obtain ⟨artifact, hprepared⟩ := Option.ne_none_iff_exists'.1 hsome
    obtain ⟨place, rfl⟩ := Option.ne_none_iff_exists'.1 hns
    have hrun := run_networkReady_of_read r w place hread hprepared
    rw [calls_networkReady_of_prepared r w place hread hprepared] at h
    obtain ⟨⟨data, hdata⟩, -⟩ := attachAll_of_succeeds r w place _ h
    -- the record afterwards: the same artifact, with every device attached
    have hread' : ((networkReady w (some place)).run r world).world.store.read w =
        some (entry.afterCalls
          ((attachAll w place entry.attached artifact.devices).calls r world)) := by
      rw [hrun, store_attachAll, Store.read_modify_self, hread]
      rfl
    have hprepared' := (entry.prepared_afterCalls
      ((attachAll w place entry.attached artifact.devices).calls r world)).trans hprepared
    have hagain := run_networkReady_of_read r w place hread' hprepared'
    have hcalls := calls_networkReady_of_prepared r w place hread' hprepared'
    rw [attachAll_of_attached w place _ (attached_of_succeeds r w place h)] at hagain hcalls
    refine ⟨?_, ?_, ?_⟩
    · simp only [run_bind, Outcome.value_after, Outcome.world_after, run, hagain]
      rw [hrun, hdata]
      rfl
    · simp only [run_bind, calls_bind, Outcome.world_after, run, calls, hcalls, List.append_nil]
    · simp only [run_bind, Outcome.world_after, run, hagain]

/-! ## Moving out -/

theorem detachAll_of_not_attached {devices : List PreparedDevice}
    (h : ∀ device ∈ devices, device.hostName ∉ attached) :
    detachAll w ns attached devices = done [] := by
  induction devices with
  | nil => rfl
  | cons device devices ih =>
    rw [detachAll, if_neg (h device List.mem_cons_self)]
    exact ih fun d hd => h d (List.mem_cons_of_mem _ hd)

/-- Once every request of moving out was granted, no device of the artifact is attached. -/
theorem not_attached_of_succeeds {entry : Entry} {devices : List PreparedDevice} {world : World σ}
    (h : ∀ call ∈ (detachAll w ns entry.attached devices).calls r world, call.Succeeds) :
    ∀ device ∈ devices, device.hostName ∉
      (entry.afterCalls ((detachAll w ns entry.attached devices).calls r world)).attached := by
  intro device hdevice hin
  have hheld := (Set.ext_iff.1 (attached_afterCalls entry _) device.hostName).1 hin
  rw [mem_foldl_held_of_asksBack fun call hcall => ?_] at hheld
  · obtain ⟨hattached, hstays⟩ := hheld
    obtain ⟨call, hcall, hrequest⟩ := exists_call_detachAll r w ns _ hdevice hattached world
    exact absurd (h call hcall).moved (by simp [hstays call hcall ⟨ns, _, hrequest⟩])
  · obtain ⟨d, -, -, hrequest⟩ := mem_calls_detachAll r w ns _ hcall
    exact ⟨_, _, _, hrequest⟩

theorem run_stopping_of_idle {ns : Option NamespaceRef} {world : World σ}
    (h : ∀ entry, world.store.read w = some entry → entry.prepared = none ∨ ns = none) :
    ((stopping w ns).run r world).world = world ∧ (stopping w ns).calls r world = [] := by
  simp only [stopping, run, calls, StoreAction.answer, StoreAction.apply]
  cases hread : world.store.read w with
  | none => exact ⟨rfl, rfl⟩
  | some entry =>
    cases hprepared : entry.prepared with
    | none => simp [hprepared, run, calls]
    | some artifact =>
      have hns : ns = none := (h entry hread).resolve_left (by simp [hprepared])
      subst hns
      simp [hprepared, run, calls]

/-- **Moving out twice.** Where every request is granted, the second time there is nothing to take
back. -/
theorem stopping_again {ns : Option NamespaceRef} {world : World σ}
    (h : ∀ call ∈ (stopping w ns).calls r world, call.Succeeds) :
    let after := ((stopping w ns).run r world).world
    ((stopping w ns).run r after).world = after ∧ (stopping w ns).calls r after = [] := by
  intro after
  by_cases hidle : ∀ entry, world.store.read w = some entry → entry.prepared = none ∨ ns = none
  · obtain ⟨hworld, hcalls⟩ := run_stopping_of_idle r w hidle
    rw [show after = world from hworld]
    exact ⟨hworld, hcalls⟩
  · push Not at hidle
    obtain ⟨entry, hread, hsome, hns⟩ := hidle
    obtain ⟨artifact, hprepared⟩ := Option.ne_none_iff_exists'.1 hsome
    obtain ⟨place, rfl⟩ := Option.ne_none_iff_exists'.1 hns
    rw [calls_stopping_of_prepared r w place hread hprepared] at h
    let moves := (detachAll w place entry.attached artifact.devices).calls r world
    have hrun := run_stopping_of_read r w place hread hprepared
    -- the record afterwards: the same artifact, with none of its devices attached
    have hread' : after.store.read w = some (entry.afterCalls moves).leave := by
      rw [show after = _ from congrArg Outcome.world hrun]
      simp [store_detachAll, Store.markNetworkDetached, hread, moves]
    have hprepared' : (entry.afterCalls moves).leave.prepared = some artifact :=
      (entry.prepared_afterCalls moves).trans hprepared
    have hnothing : detachAll w place (entry.afterCalls moves).leave.attached artifact.devices =
        done [] := detachAll_of_not_attached w place _ (not_attached_of_succeeds r w place h)
    constructor
    · rw [run_stopping_of_read r w place hread' hprepared', hnothing]
      refine World.ext ?_ rfl
      rw [show after = _ from congrArg Outcome.world hrun]
      exact Store.markNetworkDetached_again _ w
    · rw [calls_stopping_of_prepared r w place hread' hprepared', hnothing]
      rfl

/-! ## Events -/

/-- **An event that is delivered again finds nothing to do.** -/
theorem repeats_handle (event : DriverEvent) {world : World σ}
    (h : ∀ call ∈ (handle event).calls r world, call.Succeeds) :
    Repeats r (handle event) world := by
  refine .note ?_ _
  replace h : ∀ call ∈ (respond event).calls r world, call.Succeeds := h
  cases event with
  | allocated w devices => exact (repeats_prepare r w devices world).map _
  | released w => exact (repeats_unprepare r w world).map _
  | networkReady w ns =>
    refine repeats_networkReady r w ns fun call hcall => h call ?_
    simp only [respond, calls_bind, List.mem_append]
    exact .inl hcall
  | stopping w ns =>
    have hstopping (call : Call) (hcall : call ∈ (stopping w ns).calls r world) : call.Succeeds := by
      refine h call ?_
      simp only [respond, calls_bind, List.mem_append]
      exact .inl hcall
    obtain ⟨hworld, hcalls⟩ := stopping_again r w hstopping
    refine .bind_report (b := .ok ()) hworld hcalls fun report world => ?_
    cases report.isComplete with
    | true => exact ⟨rfl, [], rfl⟩
    | false => exact ⟨rfl, [.notReturned w report.failures.length report.detached], rfl⟩
  | removed w => exact (repeats_removed r w world).map _

/-! ## Runs of events -/

/-- An event that was handled: what that answered and what it asked for. -/
structure Handled where
  result : Except Error Unit
  calls : List Call

/-- Handle one event after another. -/
def handleAll : List DriverEvent → World σ → List Handled × World σ
  | [], world => ([], world)
  | event :: events, world =>
    let first := (handle event).run r world
    let rest := handleAll events first.world
    (⟨first.value, (handle event).calls r world⟩ :: rest.1, rest.2)

theorem handleAll_append (first second : List DriverEvent) (world : World σ) :
    handleAll r (first ++ second) world =
      ((handleAll r first world).1 ++ (handleAll r second (handleAll r first world).2).1,
        (handleAll r second (handleAll r first world).2).2) := by
  induction first generalizing world with
  | nil => rfl
  | cons event events ih => simp only [List.cons_append, handleAll, ih]

theorem length_handleAll (events : List DriverEvent) (world : World σ) :
    (handleAll r events world).1.length = events.length := by
  induction events generalizing world with
  | nil => rfl
  | cons event events ih => simp only [handleAll, List.length_cons, ih]

/-- **Delivered twice.** Let every request of a run be granted, and deliver one of its events twice
in a row. The record, what moves the devices and the requests of the whole run end as before. The
answers to all other events are the same; the second delivery is answered as the first and asks for
nothing. -/
theorem delivered_twice (world : World σ) (before after : List DriverEvent) (event : DriverEvent)
    (h : ∀ handled ∈ (handleAll r (before ++ event :: after) world).1,
      ∀ call ∈ handled.calls, call.Succeeds) :
    let once := handleAll r (before ++ event :: after) world
    let twice := handleAll r (before ++ event :: event :: after) world
    twice.2 = once.2 ∧ twice.1.flatMap (·.calls) = once.1.flatMap (·.calls) ∧
      ∃ earlier handled later, earlier.length = before.length ∧
        once.1 = earlier ++ handled :: later ∧
        twice.1 = earlier ++ handled :: ⟨handled.result, []⟩ :: later := by
  intro once twice
  let reached := (handleAll r before world).2
  let first := (handle event).run r reached
  have honce : once = ((handleAll r before world).1 ++
      ⟨first.value, (handle event).calls r reached⟩ :: (handleAll r after first.world).1,
      (handleAll r after first.world).2) := handleAll_append r before (event :: after) world
  have hgranted : ∀ call ∈ (handle event).calls r reached, call.Succeeds := by
    refine h ⟨first.value, (handle event).calls r reached⟩ ?_
    rw [show handleAll r (before ++ event :: after) world = _ from honce]
    exact List.mem_append_right _ List.mem_cons_self
  obtain ⟨hvalue, hcalls, hworld⟩ := repeats_handle r event hgranted
  have htwice : twice = ((handleAll r before world).1 ++
      ⟨first.value, (handle event).calls r reached⟩ :: ⟨first.value, []⟩ ::
        (handleAll r after first.world).1, (handleAll r after first.world).2) := by
    refine (handleAll_append r before (event :: event :: after) world).trans ?_
    simp only [handleAll]
    rw [hvalue, hcalls, hworld]
  rw [honce, htwice]
  refine ⟨rfl, ?_, _, _, _, length_handleAll r before world, rfl, rfl⟩
  simp

/-- `eth0` is granted, moves in, and moves out again; that its namespace exists is told twice. -/
theorem ready_delivered_twice :
    ∃ (w : WorkloadId) (eth0 : DeviceName),
      let world : World Memory :=
        ⟨.empty, (Memory.empty.addHostDevice "eth0").addNamespace (.path "ns/w1")⟩
      let before := [.allocated w [.plain eth0 "" ""]]
      let ready := .networkReady w (some (.path "ns/w1"))
      let after := [.stopping w (some (.path "ns/w1"))]
      let once := handleAll Memory.relocator (before ++ ready :: after) world
      let twice := handleAll Memory.relocator (before ++ ready :: ready :: after) world
      (∀ handled ∈ once.1, ∀ call ∈ handled.calls, call.Succeeds) ∧
      twice.2 = once.2 ∧ twice.1.flatMap (·.calls) = once.1.flatMap (·.calls) := by
  let eth0 : DeviceName := ⟨"eth0", by decide, by decide, by decide, by decide⟩
  let w : WorkloadId := ⟨"w1", by decide, by decide, by decide⟩
  have hall : (handleAll Memory.relocator
      [.allocated w [.plain eth0 "" ""], .networkReady w (some (.path "ns/w1")),
        .stopping w (some (.path "ns/w1"))]
      ⟨.empty, (Memory.empty.addHostDevice "eth0").addNamespace (.path "ns/w1")⟩).1.all
      (fun handled => handled.calls.all fun call => call.response.isOk) = true := by
    cbv
  have hgranted (handled : Handled) (hhandled) (call : Call) (hcall : call ∈ handled.calls) :
      call.Succeeds :=
    Call.succeeds_iff.2 (List.all_eq_true.1 (List.all_eq_true.1 hall handled hhandled) call hcall)
  obtain ⟨hworld, hcalls, -⟩ := delivered_twice Memory.relocator _
    [.allocated w [.plain eth0 "" ""]] [.stopping w (some (.path "ns/w1"))]
    (.networkReady w (some (.path "ns/w1"))) hgranted
  exact ⟨w, eth0, hgranted, hworld, hcalls⟩

end Lifecycle

end NetRelocation
