import Mathlib
import NetRelocation.Proofs.Bookkeeping
import NetRelocation.Proofs.Grants

/-!
# Who holds which device

A coordinator does one job after another, for any workloads and in any order, and what moves the
devices answers as it likes. From outside, each workload has a *ledger*: the devices that entered
its namespace and neither came back nor were given up.

**The ledger** (`Ledger.after`). An attach that moved its device adds it, a detach that moved its
device back takes it out, a grant that was prepared keeps only the granted devices, and a workload
that is removed has none.

**Theorem (`attached_eq_ledger`).** After every job the attached devices that the record has for a
workload are the ones of its ledger; they are devices of its artifact whenever it has one; and a
grant that is prepared reports exactly the devices that it drops, in order of their names.

The proof carries the first two statements through every job (`kept_perform`). What the two loops
do to a record is the same fold over their calls that the ledger makes (`attached_afterCalls`).
-/

namespace NetRelocation

open Program

variable {σ : Type}

/-! ## Jobs -/

namespace Lifecycle

/-- An operation of the coordinator. -/
inductive Job where
  | prepare (w : WorkloadId) (devices : List AllocatedDevice)
  | unprepare (w : WorkloadId)
  | networkReady (w : WorkloadId) (ns : Option NamespaceRef)
  | stopping (w : WorkloadId) (ns : Option NamespaceRef)
  | removed (w : WorkloadId)

namespace Job

def workload : Job → WorkloadId
  | prepare w _ => w
  | unprepare w => w
  | networkReady w _ => w
  | stopping w _ => w
  | removed w => w

def Reply : Job → Type
  | prepare .. => Except Error PreparedArtifact
  | unprepare _ => Unit
  | networkReady .. => Except Error (List NetworkDeviceData)
  | stopping .. => DetachReport
  | removed _ => Unit

def program : (job : Job) → Program job.Reply
  | prepare w devices => Lifecycle.prepare w devices
  | unprepare w => Lifecycle.unprepare w
  | networkReady w ns => Lifecycle.networkReady w ns
  | stopping w ns => Lifecycle.stopping w ns
  | removed w => Lifecycle.removed w

end Job

/-- A job that was done, with all that can be seen of it. -/
structure Performed where
  job : Job
  reply : job.Reply
  calls : List Call
  notices : List Notice

/-- Do a job. -/
def Job.perform (r : Relocator σ) (job : Job) (world : World σ) : Performed × World σ :=
  let o := job.program.run r world
  (⟨job, o.value, job.program.calls r world, o.notices⟩, o.world)

/-- Do one job after another. -/
def performAll (r : Relocator σ) : List Job → World σ → List Performed × World σ
  | [], world => ([], world)
  | job :: jobs, world =>
    let first := job.perform r world
    let rest := performAll r jobs first.2
    (first.1 :: rest.1, rest.2)

end Lifecycle

open Lifecycle

/-! ## Ledgers -/

/-- The devices inside a namespace after a call. -/
def held (devices : Set DeviceName) : Call → Set DeviceName
  | ⟨.attach device _ _ _, response⟩ => if moved response then insert device devices else devices
  | ⟨.detach _ _ (some device), response⟩ => if moved response then devices \ {device} else devices
  | ⟨.detach _ _ none, _⟩ => devices

/-- The devices that each workload holds. -/
abbrev Ledger : Type := WorkloadId → Set DeviceName

namespace Ledger

/-- No workload holds a device. -/
def blank : Ledger := fun _ => ∅

/-- What a workload keeps of the devices it holds, once the calls of a job were made. -/
def keep (devices : Set DeviceName) : (job : Job) → job.Reply → Set DeviceName
  | .prepare _ granted, .ok _ => {d ∈ devices | d ∈ granted.map (·.name)}
  | .prepare _ _, .error _ => devices
  | .unprepare _, _ => devices
  | .networkReady _ _, _ => devices
  | .stopping _ _, _ => devices
  | .removed _, _ => ∅

/-- The ledger after a job. -/
def after (ledger : Ledger) (p : Performed) : Ledger :=
  Function.update ledger p.job.workload
    (keep (p.calls.foldl held (ledger p.job.workload)) p.job p.reply)

/-- The ledger of a history. -/
def ofHistory (history : List Performed) : Ledger := history.foldl after blank

end Ledger

/-- The attached devices that the record has for a workload, none without a record. -/
def Store.attachedTo (store : Store) (w : WorkloadId) : Set DeviceName :=
  {d | ∃ entry, store.read w = some entry ∧ d ∈ entry.attached}

/-! ## Calls tell the record and the ledger the same -/

theorem attached_afterCall (entry : Entry) (call : Call) :
    {d | d ∈ (entry.afterCall call).attached} = held {d | d ∈ entry.attached} call := by
  obtain ⟨request, response⟩ := call
  rcases request with ⟨device, _, _, _⟩ | ⟨_, _, _ | device⟩
  · simp only [Entry.afterCall, held]
    split
    · ext d
      simp [Entry.attach]
    · rfl
  · rfl
  · simp only [Entry.afterCall, held]
    split
    · ext d
      simp [Entry.detach]
    · rfl

/-- **Calls change the attached devices as they change the ledger.** -/
theorem attached_afterCalls (entry : Entry) (calls : List Call) :
    {d | d ∈ (entry.afterCalls calls).attached} = calls.foldl held {d | d ∈ entry.attached} := by
  induction calls generalizing entry with
  | nil => rfl
  | cons call calls ih => rw [Entry.afterCalls_cons, ih, attached_afterCall, List.foldl_cons]

/-- Calls that move in devices of `l` only add devices of `l`. -/
theorem mem_foldl_held {calls : List Call} {devices : Set DeviceName} {l : List DeviceName}
    (hl : ∀ call ∈ calls, ∀ d t c a, call.request = .attach d t c a → d ∈ l)
    (hd : ∀ d ∈ devices, d ∈ l) : ∀ d ∈ calls.foldl held devices, d ∈ l := by
  induction calls generalizing devices with
  | nil => exact hd
  | cons call calls ih =>
    refine ih (fun c hc => hl c (List.mem_cons_of_mem _ hc)) fun d h => ?_
    have hcall := hl call List.mem_cons_self
    obtain ⟨request, response⟩ := call
    rcases request with ⟨device, target, config, addresses⟩ | ⟨_, _, _ | device⟩ <;>
      simp only [held] at h
    · split at h
      · rcases Set.mem_insert_iff.1 h with rfl | h
        · exact hcall _ _ _ _ rfl
        · exact hd d h
      · exact hd d h
    · exact hd d h
    · split at h
      · exact hd d h.1
      · exact hd d h

/-! ## The record and the ledger agree -/

/-- The record agrees with the ledger, and holds no device that its artifact lacks. -/
structure Kept (store : Store) (ledger : Ledger) : Prop where
  attached : ∀ w, store.attachedTo w = ledger w
  inArtifact : ∀ w entry artifact, store.read w = some entry → entry.prepared = some artifact →
    ∀ d ∈ entry.attached, d ∈ artifact.hostNames

theorem kept_blank : Kept .empty .blank where
  attached w := by
    ext d
    simp [Store.attachedTo, Ledger.blank]
  inArtifact w entry artifact h := by simp at h

/-- What is to be shown when one record changes. -/
theorem Kept.change {store store' : Store} {ledger : Ledger} {w : WorkloadId}
    {devices : Set DeviceName} (h : Kept store ledger)
    (hne : ∀ v, v ≠ w → store'.read v = store.read v)
    (hself : store'.attachedTo w = devices)
    (hart : ∀ entry artifact, store'.read w = some entry → entry.prepared = some artifact →
      ∀ d ∈ entry.attached, d ∈ artifact.hostNames) :
    Kept store' (Function.update ledger w devices) where
  attached v := by
    by_cases hv : v = w
    · subst hv
      rw [hself, Function.update_self]
    · rw [Function.update_of_ne hv, ← h.attached v]
      simp only [Store.attachedTo, hne v hv]
  inArtifact v := by
    by_cases hv : v = w
    · subst hv
      exact hart
    · rw [hne v hv]
      exact h.inArtifact v

theorem mem_entryOrNew {store : Store} {w : WorkloadId} {d : DeviceName} :
    d ∈ (store.entryOrNew w).attached ↔ d ∈ store.attachedTo w := by
  unfold Store.entryOrNew Store.attachedTo
  cases hw : store.read w with
  | none => simp [Entry.ofGrant]
  | some entry => simp

theorem Kept.recordPrepared {store : Store} {ledger : Ledger} (h : Kept store ledger)
    (w : WorkloadId) (devices : List AllocatedDevice) {artifact : PreparedArtifact}
    (ha : PreparedArtifact.ofAllocation devices = .ok artifact) :
    Kept (store.recordPrepared w devices artifact)
      (Function.update ledger w {d ∈ ledger w | d ∈ devices.map (·.name)}) := by
  have hread : (store.recordPrepared w devices artifact).read w =
      some ((store.entryOrNew w).prepare devices artifact) := store.read_put_self w _
  refine h.change (fun v hv => store.read_put_ne _ hv) ?_ fun entry artifact' he hp d hd => ?_
  · ext d
    simp only [Store.attachedTo, hread, Option.some.injEq, exists_eq_left', Set.mem_ofPred_eq,
      Entry.prepare, SortedSet.mem_filter, mem_entryOrNew, decide_eq_true_eq,
      hostNames_ofAllocation ha, ← h.attached w]
  · rw [hread] at he
    cases he
    cases hp
    exact of_decide_eq_true (SortedSet.mem_filter.1 hd).2

theorem Kept.clearPrepared {store : Store} {ledger : Ledger} (h : Kept store ledger)
    (w : WorkloadId) : Kept (store.clearPrepared w) ledger := by
  have hread : (store.clearPrepared w).read w = (store.read w).map Entry.unprepare :=
    store.read_modify_self w _
  rw [← Function.update_eq_self w ledger]
  refine h.change (fun v hv => store.read_modify_ne _ hv) ?_ fun entry artifact he hp => ?_
  · rw [← h.attached w]
    ext d
    simp [Store.attachedTo, hread, Entry.unprepare]
  · rw [hread] at he
    obtain ⟨old, -, rfl⟩ := Option.map_eq_some_iff.1 he
    cases hp

theorem Kept.purge {store : Store} {ledger : Ledger} (h : Kept store ledger) (w : WorkloadId) :
    Kept (store.purge w) (Function.update ledger w ∅) := by
  refine h.change (fun v hv => store.read_purge_ne hv) ?_ fun entry artifact he => ?_
  · ext d
    simp [Store.attachedTo]
  · simp at he

/-- Calls for a workload change its record as they change its ledger. -/
theorem Kept.afterCalls {store : Store} {ledger : Ledger} (h : Kept store ledger) {w : WorkloadId}
    {calls : List Call} (f : Entry → Entry) (hf : ∀ entry, (f entry).attached = entry.attached)
    (hp : ∀ entry, (f entry).prepared = entry.prepared) (hnone : store.read w = none → calls = [])
    (hcalls : ∀ entry artifact, store.read w = some entry → entry.prepared = some artifact →
      ∀ call ∈ calls, ∀ d t c a, call.request = .attach d t c a → d ∈ artifact.hostNames) :
    Kept (store.modify w fun entry => f (entry.afterCalls calls))
      (Function.update ledger w (calls.foldl held (ledger w))) := by
  refine h.change (fun v hv => store.read_modify_ne _ hv) ?_ fun entry artifact he hpa d hd => ?_
  · rw [← h.attached w]
    cases hw : store.read w with
    | none => simp [Store.attachedTo, hw, hnone hw]
    | some entry => simp [Store.attachedTo, hw, hf, attached_afterCalls]
  · rw [Store.read_modify_self] at he
    obtain ⟨old, hold, rfl⟩ := Option.map_eq_some_iff.1 he
    rw [hp, Entry.prepared_afterCalls] at hpa
    have hd' : d ∈ {d | d ∈ (old.afterCalls calls).attached} := by rwa [hf] at hd
    rw [attached_afterCalls] at hd'
    exact mem_foldl_held (hcalls old artifact hold hpa) (h.inArtifact w old artifact hold hpa) d hd'

/-! ## One job -/

/-- **One job keeps the record and the ledger in agreement.** -/
theorem kept_perform (r : Relocator σ) {world : World σ} {ledger : Ledger}
    (h : Kept world.store ledger) (job : Job) :
    Kept (job.perform r world).2.store (ledger.after (job.perform r world).1) := by
  cases job with
  | prepare w devices =>
    show Kept ((Lifecycle.prepare w devices).run r world).world.store
      (Function.update ledger w
        (Ledger.keep (((Lifecycle.prepare w devices).calls r world).foldl held (ledger w))
          (.prepare w devices) ((Lifecycle.prepare w devices).run r world).value))
    rw [calls_prepare]
    cases ha : PreparedArtifact.ofAllocation devices with
    | error e =>
      rw [run_prepare_error r w ha]
      simpa [Ledger.keep] using h
    | ok artifact =>
      rw [run_prepare_ok r w ha]
      exact h.recordPrepared w devices ha
  | unprepare w =>
    show Kept ((Lifecycle.unprepare w).run r world).world.store
      (Function.update ledger w
        (((Lifecycle.unprepare w).calls r world).foldl held (ledger w)))
    rw [store_unprepare, calls_unprepare, List.foldl_nil, Function.update_eq_self]
    exact h.clearPrepared w
  | networkReady w ns =>
    show Kept ((Lifecycle.networkReady w ns).run r world).world.store
      (Function.update ledger w
        (((Lifecycle.networkReady w ns).calls r world).foldl held (ledger w)))
    rw [store_networkReady]
    refine h.afterCalls id (fun _ => rfl) (fun _ => rfl)
      (fun hw => calls_networkReady_of_read r w hw ns)
      fun entry artifact he hp call hc d t c a hd => ?_
    obtain ⟨entry', artifact', device, place, he', hp', hdev, hreq⟩ := mem_calls_networkReady r w hc
    rw [he] at he'
    cases he'
    rw [hp] at hp'
    cases hp'
    rw [hd] at hreq
    cases hreq
    exact List.mem_map_of_mem hdev
  | stopping w ns =>
    show Kept ((Lifecycle.stopping w ns).run r world).world.store
      (Function.update ledger w
        (((Lifecycle.stopping w ns).calls r world).foldl held (ledger w)))
    rw [store_stopping]
    refine h.afterCalls (fun entry => if world.store.isPrepared w && ns.isSome then entry.leave
      else entry) (fun entry => ?_) (fun entry => ?_) (fun hw => calls_stopping_of_read r w hw ns)
      fun entry artifact _ _ call hc d t c a hd => ?_
    · split <;> rfl
    · split <;> rfl
    · obtain ⟨entry', artifact', device, place, -, -, -, hreq⟩ := mem_calls_stopping r w hc
      rw [hd] at hreq
      cases hreq
  | removed w =>
    show Kept ((Lifecycle.removed w).run r world).world.store (Function.update ledger w ∅)
    rw [store_removed]
    exact h.purge w

/-! ## Whole histories -/

/-- What can be seen of jobs that start with an empty record. -/
def history (r : Relocator σ) (s : σ) (jobs : List Job) : List Performed :=
  (performAll r jobs ⟨.empty, s⟩).1

/-- The world after jobs that start with an empty record. -/
def worldAfter (r : Relocator σ) (s : σ) (jobs : List Job) : World σ :=
  (performAll r jobs ⟨.empty, s⟩).2

theorem kept_performAll (r : Relocator σ) (jobs : List Job) {world : World σ} {ledger : Ledger}
    (h : Kept world.store ledger) :
    Kept (performAll r jobs world).2.store ((performAll r jobs world).1.foldl .after ledger) := by
  induction jobs generalizing world ledger with
  | nil => exact h
  | cons job jobs ih => exact ih (kept_perform r h job)

theorem kept_history (r : Relocator σ) (s : σ) (jobs : List Job) :
    Kept (worldAfter r s jobs).store (.ofHistory (history r s jobs)) :=
  kept_performAll r jobs kept_blank

theorem performAll_concat (r : Relocator σ) (jobs : List Job) (job : Job) (world : World σ) :
    performAll r (jobs ++ [job]) world =
      ((performAll r jobs world).1 ++ [(job.perform r (performAll r jobs world).2).1],
        (job.perform r (performAll r jobs world).2).2) := by
  induction jobs generalizing world with
  | nil => rfl
  | cons first jobs ih => simp [performAll, ih]

theorem history_concat (r : Relocator σ) (s : σ) (jobs : List Job) (job : Job) :
    history r s (jobs ++ [job]) =
      history r s jobs ++ [(job.perform r (worldAfter r s jobs)).1] := by
  simp [history, worldAfter, performAll_concat]

theorem worldAfter_concat (r : Relocator σ) (s : σ) (jobs : List Job) (job : Job) :
    worldAfter r s (jobs ++ [job]) = (job.perform r (worldAfter r s jobs)).2 := by
  simp [worldAfter, performAll_concat]

theorem ofHistory_concat (l : List Performed) (p : Performed) :
    Ledger.ofHistory (l ++ [p]) = (Ledger.ofHistory l).after p := by
  simp [Ledger.ofHistory]

/-- A grant that was prepared leaves its workload the granted devices. -/
theorem after_prepare (r : Relocator σ) (ledger : Ledger) (w : WorkloadId)
    {devices : List AllocatedDevice} {artifact : PreparedArtifact} (world : World σ)
    (h : PreparedArtifact.ofAllocation devices = .ok artifact) :
    ledger.after ((Job.prepare w devices).perform r world).1 w =
      {d ∈ ledger w | d ∈ artifact.hostNames} := by
  show Function.update ledger w (Ledger.keep
    (((Lifecycle.prepare w devices).calls r world).foldl held (ledger w))
    (.prepare w devices) ((Lifecycle.prepare w devices).run r world).value) w = _
  rw [calls_prepare, run_prepare_ok r w h, Function.update_self, hostNames_ofAllocation h]
  rfl

/-- **The record is the ledger.** After any jobs, the attached devices of each workload are the ones
of its ledger, and its artifact has them all. A grant that is prepared next reports the devices that
leave the ledger with it, each once and in order. -/
theorem attached_eq_ledger (r : Relocator σ) (s : σ) (jobs : List Job) :
    (∀ w, (worldAfter r s jobs).store.attachedTo w = Ledger.ofHistory (history r s jobs) w) ∧
    (∀ w entry artifact, (worldAfter r s jobs).store.read w = some entry →
      entry.prepared = some artifact → ∀ d ∈ entry.attached, d ∈ artifact.hostNames) ∧
    ∀ w devices artifact,
      ((Lifecycle.prepare w devices).run r (worldAfter r s jobs)).value = .ok artifact →
      ∃ names : List DeviceName,
        ((Job.prepare w devices).perform r (worldAfter r s jobs)).1.notices =
          names.map (.forgotten w) ++ [.prepared w artifact.devices.length] ∧
        names.Pairwise (· < ·) ∧
        ∀ d, d ∈ names ↔ d ∈ Ledger.ofHistory (history r s jobs) w ∧
          d ∉ Ledger.ofHistory (history r s (jobs ++ [.prepare w devices])) w := by
  have h := kept_history r s jobs
  refine ⟨h.attached, h.inArtifact, fun w devices artifact hv => ?_⟩
  have ha : PreparedArtifact.ofAllocation devices = .ok artifact := by
    cases ha : PreparedArtifact.ofAllocation devices with
    | error e => rw [run_prepare_error r w ha] at hv; cases hv
    | ok artifact' => rw [run_prepare_ok r w ha] at hv; exact hv
  refine ⟨(worldAfter r s jobs).store.lost w artifact, ?_, SortedSet.sorted _, fun d => ?_⟩
  · show ((Lifecycle.prepare w devices).run r (worldAfter r s jobs)).notices = _
    rw [run_prepare_ok r w ha]
  · rw [history_concat, ofHistory_concat, after_prepare r _ w _ ha, ← h.attached w]
    simp only [Store.lost, Entry.lost, SortedSet.mem_toList, SortedSet.mem_filter, mem_entryOrNew,
      decide_eq_true_eq, Set.mem_ofPred_eq]
    constructor
    · rintro ⟨hd, hn⟩
      exact ⟨hd, fun hk => hn hk.2⟩
    · rintro ⟨hd, hn⟩
      exact ⟨hd, fun hk => hn ⟨hd, hk⟩⟩

end NetRelocation
