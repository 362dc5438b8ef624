import NetRelocation.Proofs.InsideNames

/-!
# Entering once

A device that is inside a namespace is no longer on the host, and a request to move it in again can
only fail; moving in then stops there. So it passes over the devices that are attached. Which those
are it looks up once, before its first request, and its own requests are noted in the record
afterwards.

**Theorem (`asked_in_while_attached_iff`).** In a run of jobs, a device is asked in while the record
has it attached exactly if it was asked in before by the same job. This takes a grant that names the
device twice. From one job to another it does not happen: between a move in and a later request for
the same device some job let the device go (`Performed.LetsGo`), by moving it back, by a grant
without it, or by forgetting its workload. `asked_in_while_attached` is a run with a grant of one
device twice.

A request is looked at together with the record at that moment (`Program.asked`). In the middle of
moving in, the record is the one from the start with the earlier requests noted, each of which was
granted (`asked_networkReady`).
-/

namespace NetRelocation

open Program Lifecycle

variable {α β σ : Type} {w : WorkloadId} {d : DeviceName}

/-! ## Requests and the record -/

/-- A call together with the record when it was made. -/
structure Asked where
  store : Store
  call : Call

/-- The calls of a run, in order, each with the record at that moment. -/
def Program.asked (r : Relocator σ) : Program α → World σ → List Asked
  | .done _, _ => []
  | .store action next, world =>
    (next (action.answer world.store)).asked r { world with store := action.apply world.store }
  | .relocate request next, world =>
    let answer := r.answer request world.relocator
    ⟨world.store, ⟨request, answer.result⟩⟩ ::
      (next answer.result).asked r { world with relocator := answer.state }
  | .note _ next, world => next.asked r world

theorem map_call_asked (r : Relocator σ) (p : Program α) (world : World σ) :
    (p.asked r world).map (·.call) = p.calls r world := by
  induction p generalizing world with
  | done a => rfl
  | store action next ih => exact ih _ _
  | relocate request next ih => exact congrArg (_ :: ·) (ih _ _)
  | note notice next ih => exact ih world

theorem asked_bind (r : Relocator σ) (p : Program α) (f : α → Program β) (world : World σ) :
    (p >>= f).asked r world =
      p.asked r world ++ (f (p.run r world).value).asked r (p.run r world).world := by
  rw [bind_eq]
  induction p generalizing world with
  | done a => rfl
  | store action next ih => exact ih _ _
  | relocate request next ih => exact congrArg (_ :: ·) (ih _ _)
  | note notice next ih => exact ih world

def Call.AsksIn (call : Call) (d : DeviceName) : Prop :=
  ∃ target config addresses, call.request = .attach d target config addresses

theorem Call.asksIn_iff_of_request {call : Call} {device : DeviceName} {target : NamespaceRef}
    {config : LinkConfig} {addresses : List Network}
    (h : call.request = .attach device target config addresses) : call.AsksIn d ↔ device = d := by
  simp [AsksIn, h]

theorem Call.places_of_asksIn {call : Call} (h : call.AsksIn d)
    (hmoved : moved call.response = true) : ∃ name, call.Places d name := by
  obtain ⟨target, config, addresses, hrequest⟩ := h
  exact ⟨_, target, config, addresses, hrequest, rfl, hmoved⟩

theorem Call.Places.asksIn {call : Call} {name : DeviceName} (h : call.Places d name) :
    call.AsksIn d := by
  obtain ⟨target, config, addresses, hrequest, -, -⟩ := h
  exact ⟨target, config, addresses, hrequest⟩

namespace Lifecycle

variable (r : Relocator σ)

/-! ## In the middle of moving in -/

/-- When a request is made, the ones before it were granted and are noted. -/
theorem asked_attachAll {ns : NamespaceRef} {attached : SortedSet DeviceName}
    {devices : List PreparedDevice} {world : World σ} {earlier later : List Asked} {asked : Asked}
    (h : (attachAll w ns attached devices).asked r world = earlier ++ asked :: later) :
    asked.store = world.store.modify w (·.afterCalls (earlier.map (·.call))) ∧
      ∀ before ∈ earlier, moved before.call.response = true := by
  induction devices generalizing world earlier with
  | nil => simp [attachAll, Program.asked] at h
  | cons device devices ih =>
    by_cases ha : device.hostName ∈ attached
    · simp only [attachAll, if_pos ha] at h
      exact ih h
    · simp only [attachAll, if_neg ha, Program.asked] at h
      cases earlier with
      | nil =>
        obtain ⟨rfl, -⟩ := List.cons.inj h
        simp
      | cons first earlier =>
        obtain ⟨rfl, hrest⟩ := List.cons.inj h
        cases hr : (r.answer (.attach device.hostName ns device.config device.addresses)
          world.relocator).result with
        | error e => cases he : e.deviceMoved <;> simp [hr, he, Program.asked] at hrest
        | ok data =>
          simp only [hr, Program.asked, asked_bind, pure_eq, List.append_nil] at hrest
          obtain ⟨hstore, hearlier⟩ := ih hrest
          constructor
          · rw [hstore]
            simp [StoreAction.apply, Store.markAttached, Store.modify_modify, Entry.afterCall,
              moved]
          · rintro before (_ | ⟨_, hbefore⟩)
            · rfl
            · exact hearlier before hbefore

theorem asked_networkReady_of_prepared {ns : NamespaceRef} {world : World σ} {entry : Entry}
    {artifact : PreparedArtifact} (hread : world.store.read w = some entry)
    (hprepared : entry.prepared = some artifact) :
    (networkReady w (some ns)).asked r world =
      (attachAll w ns entry.attached artifact.devices).asked r world := by
  simp [networkReady, Program.asked, StoreAction.answer, StoreAction.apply, hread, hprepared]

/-- **In the middle of moving in**, a request finds the record from the start, with the requests
before it noted; each of them moved its device. -/
theorem asked_networkReady {ns : Option NamespaceRef} {world : World σ} {earlier later : List Asked}
    {asked : Asked} (h : (networkReady w ns).asked r world = earlier ++ asked :: later) :
    asked.store = world.store.modify w (·.afterCalls (earlier.map (·.call))) ∧
      ∀ before ∈ earlier, moved before.call.response = true := by
  have hcall : asked.call ∈ (networkReady w ns).calls r world := by
    rw [← map_call_asked, h]
    simp
  cases ns with
  | none => simp [networkReady, calls] at hcall
  | some place =>
    obtain ⟨entry, artifact, -, -, hread, hprepared, -⟩ := mem_calls_networkReady r w hcall
    rw [asked_networkReady_of_prepared r hread hprepared] at h
    exact asked_attachAll r h

/-- **A device that is asked in is recorded as attached if it was asked in before.** -/
theorem mem_attachedTo_asked {ns : Option NamespaceRef} {world : World σ}
    {earlier later : List Asked} {asked : Asked}
    (h : (networkReady w ns).asked r world = earlier ++ asked :: later)
    (hasks : asked.call.AsksIn d) :
    d ∈ asked.store.attachedTo w ↔ ∃ before ∈ earlier, before.call.AsksIn d := by
  have hcalls : (networkReady w ns).calls r world =
      earlier.map (·.call) ++ asked.call :: later.map (·.call) := by
    rw [← map_call_asked, h, List.map_append, List.map_cons]
  obtain ⟨hstore, hmoved⟩ := asked_networkReady r h
  obtain ⟨artifact, hartifact, device, -, hout, place, hrequest⟩ :=
    request_networkReady r (hcalls ▸ List.mem_append_right _ List.mem_cons_self)
  obtain rfl := (Call.asksIn_iff_of_request hrequest).1 hasks
  obtain ⟨entry, hread, -⟩ := Store.artifactOf_eq_some.1 hartifact
  rw [Store.mem_attachedTo_of_read hread] at hout
  have hread' : asked.store.read w = some (entry.afterCalls (earlier.map (·.call))) := by
    rw [hstore, Store.read_modify_self, hread]
    rfl
  have hin : device.hostName ∈ (entry.afterCalls (earlier.map (·.call))).attached ↔
      device.hostName ∈ entry.attached ∨
        ∃ call ∈ earlier.map (·.call), ∃ name, call.Places device.hostName name := by
    refine (Set.ext_iff.1 (attached_afterCalls entry _) device.hostName).trans
      (mem_foldl_held_of_places fun call hcall => ?_)
    obtain ⟨-, -, other, -, -, place', hother⟩ :=
      request_networkReady r (hcalls ▸ List.mem_append_left _ hcall)
    exact ⟨_, _, _, _, hother⟩
  rw [Store.mem_attachedTo_of_read hread', hin, or_iff_right hout]
  constructor
  · rintro ⟨call, hcall, name, hplaces⟩
    obtain ⟨before, hbefore, rfl⟩ := List.mem_map.1 hcall
    exact ⟨before, hbefore, hplaces.asksIn⟩
  · rintro ⟨before, hbefore, hasks⟩
    exact ⟨before.call, List.mem_map_of_mem hbefore,
      Call.places_of_asksIn hasks (hmoved before hbefore)⟩

/-! ## Grants of distinct devices -/

/-- Of distinct devices each is asked in once. -/
theorem pairwise_calls_attachAll {ns : NamespaceRef} {attached : SortedSet DeviceName}
    {devices : List PreparedDevice} (h : (devices.map (·.hostName)).Nodup) (world : World σ) :
    ((attachAll w ns attached devices).calls r world).Pairwise
      fun first second => ∀ d, first.AsksIn d → ¬ second.AsksIn d := by
  induction devices generalizing world with
  | nil => simp [attachAll, calls]
  | cons device devices ih =>
    rw [List.map_cons, List.nodup_cons] at h
    by_cases ha : device.hostName ∈ attached
    · simp only [attachAll, if_pos ha]
      exact ih h.2 world
    · simp only [attachAll, if_neg ha, calls]
      cases hr : (r.answer (.attach device.hostName ns device.config device.addresses)
        world.relocator).result with
      | error e => cases he : e.deviceMoved <;> simp [he, calls]
      | ok data =>
        simp only [calls, calls_bind, pure_eq, List.append_nil]
        refine List.pairwise_cons.2 ⟨?_, ih h.2 _⟩
        intro call hcall d hfirst hsecond
        obtain ⟨other, hother, -, hrequest⟩ := mem_calls_attachAll r w ns attached hcall
        have hd := (Call.asksIn_iff_of_request rfl).1 hfirst
        have hsame := (Call.asksIn_iff_of_request hrequest).1 hsecond
        exact h.1 (List.mem_map.2 ⟨other, hother, hsame.trans hd.symm⟩)

/-- The artifact in force is that of a grant among the jobs. -/
theorem exists_grant_of_inForce {jobs : List Job} {artifact : PreparedArtifact}
    (h : inForce w jobs = some artifact) :
    ∃ devices, .prepare w devices ∈ jobs ∧
      PreparedArtifact.ofAllocation devices = .ok artifact := by
  induction jobs using List.reverseRecOn with
  | nil => cases h
  | append_singleton jobs job ih =>
    have hbefore (h : inForce w jobs = some artifact) : ∃ devices,
        .prepare w devices ∈ jobs ++ [job] ∧
          PreparedArtifact.ofAllocation devices = .ok artifact := by
      obtain ⟨devices, hdevices, hok⟩ := ih h
      exact ⟨devices, List.mem_append_left _ hdevices, hok⟩
    by_cases hw : w = job.workload
    · subst hw
      rw [inForce_concat_self] at h
      cases job with
      | prepare w devices =>
        cases ha : PreparedArtifact.ofAllocation devices with
        | error e =>
          simp only [Job.renew, ha] at h
          exact hbefore h
        | ok artifact' =>
          simp only [Job.renew, ha] at h
          cases h
          exact ⟨devices, List.mem_append_right _ List.mem_cons_self, ha⟩
      | unprepare w => cases h
      | networkReady w ns => exact hbefore h
      | stopping w ns => exact hbefore h
      | removed w => cases h
    · rw [inForce_concat_of_ne jobs hw] at h
      exact hbefore h

/-- No grant that could be prepared for a workload names a device twice. -/
def GrantsDistinct (w : WorkloadId) (jobs : List Job) : Prop :=
  ∀ devices artifact, .prepare w devices ∈ jobs →
    PreparedArtifact.ofAllocation devices = .ok artifact → (devices.map (·.name)).Nodup

theorem pairwise_calls_networkReady (s : σ) {jobs : List Job} (h : GrantsDistinct w jobs)
    (ns : Option NamespaceRef) :
    ((networkReady w ns).calls r (worldAfter r s jobs)).Pairwise
      fun first second => ∀ d, first.AsksIn d → ¬ second.AsksIn d := by
  cases hcalls : (networkReady w ns).calls r (worldAfter r s jobs) with
  | nil => exact .nil
  | cons call calls =>
    cases ns with
    | none => cases hcalls
    | some place =>
      obtain ⟨entry, artifact, -, -, hread, hprepared, -⟩ :=
        mem_calls_networkReady r w (hcalls ▸ List.mem_cons_self)
      have hforce : inForce w jobs = some artifact := by
        rw [← artifactOf_worldAfter r s jobs, Store.artifactOf_eq_some]
        exact ⟨entry, hread, hprepared⟩
      obtain ⟨devices, hgrant, hok⟩ := exists_grant_of_inForce hforce
      have hnames : (artifact.devices.map (·.hostName)).Nodup := by
        have hdistinct := h devices artifact hgrant hok
        rwa [← hostNames_ofAllocation hok] at hdistinct
      rw [← hcalls, calls_networkReady_of_prepared r w place hread hprepared]
      exact pairwise_calls_attachAll r hnames _

/-! ## Devices that are let go -/

/-- Whether a job with its reply takes a device out of the record without moving it: a grant without
the device, or the end of its workload. -/
def Job.Drops (d : DeviceName) : (job : Job) → job.Reply → Prop
  | .prepare _ devices, .ok _ => d ∉ devices.map (·.name)
  | .prepare _ _, .error _ => False
  | .unprepare _, _ => False
  | .networkReady _ _, _ => False
  | .stopping _ _, _ => False
  | .removed _, _ => True

/-- A job lets a device of a workload go: it moved the device back, or dropped it. -/
def Performed.LetsGo (p : Performed) (w : WorkloadId) (d : DeviceName) : Prop :=
  p.job.workload = w ∧
    ((∃ call ∈ p.calls, call.AsksBack d ∧ moved call.response = true) ∨ p.job.Drops d p.reply)

/-- A device that is no longer inside after some calls was moved back by one. -/
theorem exists_returned {calls : List Call} {devices : Set DeviceName} (hin : d ∈ devices)
    (hout : d ∉ calls.foldl held devices) :
    ∃ call ∈ calls, call.AsksBack d ∧ moved call.response = true := by
  induction calls generalizing devices with
  | nil => exact absurd hin hout
  | cons call calls ih =>
    by_cases hheld : d ∈ held devices call
    · obtain ⟨later, hlater, hback⟩ := ih hheld hout
      exact ⟨later, List.mem_cons_of_mem _ hlater, hback⟩
    · refine ⟨call, List.mem_cons_self, ?_⟩
      obtain ⟨request, response⟩ := call
      rcases request with ⟨device, target, config, addresses⟩ | ⟨source, name, _ | device⟩
      · simp only [held] at hheld
        split at hheld
        · exact absurd (Set.mem_insert_of_mem device hin) hheld
        · exact absurd hin hheld
      · exact absurd hin hheld
      · simp only [held] at hheld
        split at hheld
        · rename_i hmoved
          have hsame : d = device := by
            by_contra hne
            exact hheld ⟨hin, hne⟩
          exact ⟨⟨source, name, congrArg _ (congrArg some hsame.symm)⟩, hmoved⟩
        · exact absurd hin hheld

/-- A job that takes a device off the ledger lets it go. -/
theorem letsGo_of_after {ledger : Ledger} {p : Performed} (hin : d ∈ ledger w)
    (hout : d ∉ ledger.after p w) : p.LetsGo w d := by
  by_cases hw : w = p.job.workload
  · subst hw
    refine ⟨rfl, ?_⟩
    rw [Ledger.after, Function.update_self] at hout
    by_cases hheld : d ∈ p.calls.foldl held (ledger p.job.workload)
    · right
      obtain ⟨job, reply, calls, notices⟩ := p
      cases job with
      | prepare w devices =>
        cases reply with
        | error e => exact absurd hheld hout
        | ok artifact => exact fun hgranted => hout ⟨hheld, hgranted⟩
      | unprepare w => exact absurd hheld hout
      | networkReady w ns => exact absurd hheld hout
      | stopping w ns => exact absurd hheld hout
      | removed w => trivial
    · exact .inl (exists_returned hin hheld)
  · rw [Ledger.after, Function.update_of_ne hw] at hout
    exact absurd hin hout

/-- **Who was inside and is outside was let go.** -/
theorem exists_letsGo (s : σ) {jobs between : List Job}
    (hin : d ∈ (worldAfter r s jobs).store.attachedTo w)
    (hout : d ∉ (worldAfter r s (jobs ++ between)).store.attachedTo w) :
    ∃ earlier job later, between = earlier ++ job :: later ∧
      (job.perform r (worldAfter r s (jobs ++ earlier))).1.LetsGo w d := by
  induction between using List.reverseRecOn with
  | nil =>
    rw [List.append_nil] at hout
    exact absurd hin hout
  | append_singleton between job ih =>
    by_cases hstill : d ∈ (worldAfter r s (jobs ++ between)).store.attachedTo w
    · refine ⟨between, job, [], rfl, ?_⟩
      rw [(kept_history r s _).attached] at hstill
      rw [← List.append_assoc, (kept_history r s _).attached, history_concat,
        ofHistory_concat] at hout
      exact letsGo_of_after hstill hout
    · obtain ⟨earlier, job', later, rfl, hgone⟩ := ih hstill
      exact ⟨earlier, job', later ++ [job], by simp, hgone⟩

/-! ## Whole runs -/

/-- **Asked in while attached.** In a run of jobs, a device that `networkReady` asks in is recorded
as attached at that moment exactly if the same `networkReady` asked it in before; where no grant
names a device twice it never is. A device that one `networkReady` moved in is asked in by a later
one only after a job in between let it go. -/
theorem asked_in_while_attached_iff (r : Relocator σ) (s : σ) (jobs : List Job) (w : WorkloadId)
    (ns : Option NamespaceRef) :
    (∀ earlier asked later, (networkReady w ns).asked r (worldAfter r s jobs) =
        earlier ++ asked :: later → ∀ d, asked.call.AsksIn d →
      (d ∈ asked.store.attachedTo w ↔ ∃ before ∈ earlier, before.call.AsksIn d)) ∧
    (GrantsDistinct w jobs → ∀ asked ∈ (networkReady w ns).asked r (worldAfter r s jobs),
      ∀ d, asked.call.AsksIn d → d ∉ asked.store.attachedTo w) ∧
    ∀ call ∈ (networkReady w ns).calls r (worldAfter r s jobs), ∀ d name, call.Places d name →
      ∀ between ns', ∀ again ∈
        (networkReady w ns').calls r (worldAfter r s (jobs ++ [.networkReady w ns] ++ between)),
        again.AsksIn d → ∃ earlier job later, between = earlier ++ job :: later ∧
          Performed.LetsGo
            (job.perform r (worldAfter r s (jobs ++ [.networkReady w ns] ++ earlier))).1 w d := by
  refine ⟨fun earlier asked later hcut d hasks => mem_attachedTo_asked r hcut hasks,
    fun hdistinct asked hasked d hasks hattached => ?_,
    fun call hcall d name hplaces between ns' again hagain hasks => ?_⟩
  · obtain ⟨earlier, later, hcut⟩ := List.append_of_mem hasked
    obtain ⟨before, hbefore, hsame⟩ := (mem_attachedTo_asked r hcut hasks).1 hattached
    have hpairwise := pairwise_calls_networkReady r s hdistinct ns
    rw [← map_call_asked, hcut, List.map_append, List.pairwise_append] at hpairwise
    exact hpairwise.2.2 _ (List.mem_map_of_mem hbefore) _ (by simp) d hsame hasks
  · obtain ⟨-, -, device, -, hout, place, hrequest⟩ := request_networkReady r hagain
    obtain rfl := (Call.asksIn_iff_of_request hrequest).1 hasks
    exact exists_letsGo r s
      ((mem_attachedTo_networkReady r s jobs ns).2 (.inr ⟨call, hcall, name, hplaces⟩)) hout

/-- `eth0` is granted twice in one grant. It moves in and is noted; then it is asked in again, which
fails. -/
theorem asked_in_while_attached :
    ∃ (w : WorkloadId) (eth0 : DeviceName),
      let m := (Memory.empty.addHostDevice "eth0").addNamespace (.path "ns/w1")
      let device := AllocatedDevice.plain eth0 "" ""
      let ready := networkReady w (some (.path "ns/w1"))
      let world := worldAfter Memory.relocator m [.prepare w [device, device]]
      ∃ first second, ready.asked Memory.relocator world = [first, second] ∧
        first.call.AsksIn eth0 ∧ moved first.call.response = true ∧
        second.call.AsksIn eth0 ∧ eth0 ∈ second.store.attachedTo w ∧
        moved second.call.response = false ∧
        (ready.run Memory.relocator world).value = .error (.notFound .device "eth0") := by
  refine ⟨⟨"w1", by decide, by decide, by decide⟩,
    ⟨"eth0", by decide, by decide, by decide, by decide⟩, ?_⟩
  refine ⟨_, _, rfl, (Call.asksIn_iff_of_request rfl).2 rfl, rfl,
    (Call.asksIn_iff_of_request rfl).2 rfl, ⟨_, rfl, ?_⟩, rfl, rfl⟩
  decide

end Lifecycle

end NetRelocation
