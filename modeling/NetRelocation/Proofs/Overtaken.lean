import NetRelocation.Proofs.LastWriter
import NetRelocation.Relocation.Memory

/-!
# Grants that overtake a ready namespace

One task prepares and releases the grants of a workload while another moves its devices in and out;
each does one thing after the other, and their steps come in any order. A task that moves devices in
works from the artifact that it read when it began, and notes each device that it moved. Meanwhile
the other task may record another grant.

**Theorem (`attached_outside_iff_overtaken`).** While a workload has an artifact, an attached device
is none of it exactly if it was *overtaken*: the task that moved it had read an artifact with the
device, then a grant without it was recorded, then the device was noted as attached and not noted as
detached since. `attached_outside_of_race` is such an interleaving.

What the record has of a device is decided by the operations since the last grant
(`mem_attached_afterAll`), and a note that a device is attached has a reading before it that showed
the device (`exists_reading_of_mark`). A reading after the last grant would have shown the device in
the artifact that the workload has now.
-/

namespace NetRelocation

open Program

variable {σ ι α : Type} {w : WorkloadId} {d : DeviceName}

/-! ## The operations since a grant -/

theorem append_cons_eq_append_cons {before before' after after' : List α} {x y : α}
    (h : before ++ x :: after = before' ++ y :: after') :
    (∃ between, before' = before ++ x :: between ∧ after = between ++ y :: after') ∨
      (before = before' ∧ x = y ∧ after = after') ∨
      ∃ between, before = before' ++ y :: between ∧ after' = between ++ x :: after := by
  rcases List.append_eq_append_iff.1 h with ⟨m, rfl, hm⟩ | ⟨m, rfl, hm⟩
  · cases m with
    | nil => simp_all
    | cons z m => exact .inl ⟨m, by simp_all⟩
  · cases m with
    | nil => simp_all
    | cons z m => exact .inr (.inr ⟨m, by simp_all⟩)

theorem exists_of_actions_eq {past : List (ι × Act)} {before after : List StoreAction}
    {action : StoreAction} (h : actions past = before ++ action :: after) :
    ∃ past₁ i response past₂, past = past₁ ++ (i, .stored action response) :: past₂ ∧
      actions past₁ = before ∧ actions past₂ = after := by
  obtain ⟨past₁, rest, rfl, rfl, hrest⟩ := List.filterMap_eq_append_iff.1 h
  obtain ⟨skipped, ⟨i, act⟩, past₂, rfl, hnone, hact, rfl⟩ := List.filterMap_eq_cons_iff.1 hrest
  have hskipped : actions skipped = [] := List.filterMap_eq_nil_iff.2 hnone
  cases act with
  | stored action' response =>
    cases hact
    refine ⟨past₁ ++ skipped, i, response, past₂, by simp, ?_, rfl⟩
    rw [actions_append, hskipped, List.append_nil]
    rfl
  | called call => cases hact
  | noted notice => cases hact

/-- A workload that was granted devices since it was last forgotten has a last grant. -/
theorem Granted.exists_last {actions : List StoreAction} (h : Granted w actions) :
    ∃ before devices artifact after,
      actions = before ++ .recordPrepared w devices artifact :: after ∧ Ungranted w after := by
  obtain ⟨before, devices, artifact, after, rfl, -⟩ := h
  induction after using List.reverseRecOn with
  | nil => exact ⟨before, devices, artifact, [], rfl, fun _ _ => List.not_mem_nil⟩
  | append_singleton after action ih =>
    by_cases hrecord : Ungranted w [action]
    · obtain ⟨before', devices', artifact', after', h, hafter⟩ := ih
      refine ⟨before', devices', artifact', after' ++ [action], ?_, fun devices artifact hmem => ?_⟩
      · rw [← List.cons_append, ← List.append_assoc, h, List.append_assoc, List.cons_append]
      · exact (List.mem_append.1 hmem).elim (hafter devices artifact) (hrecord devices artifact)
    · simp only [Ungranted, not_forall, not_not, List.mem_singleton] at hrecord
      obtain ⟨devices', artifact', rfl⟩ := hrecord
      exact ⟨before ++ .recordPrepared w devices artifact :: after, devices', artifact', [],
        by simp, fun _ _ => List.not_mem_nil⟩

/-- Nothing was forgotten after the last grant. -/
theorem Granted.not_mem_purge {actions before after : List StoreAction}
    {devices : List AllocatedDevice} {artifact : PreparedArtifact} (h : Granted w actions)
    (hlast : actions = before ++ .recordPrepared w devices artifact :: after)
    (hafter : Ungranted w after) : .purge w ∉ after := by
  obtain ⟨before', devices', artifact', after', hactions, hpurge⟩ := h
  rcases append_cons_eq_append_cons (hlast.symm.trans hactions) with
    ⟨between, -, rfl⟩ | ⟨-, -, rfl⟩ | ⟨between, -, rfl⟩
  · exact absurd (by simp) (hafter devices' artifact')
  · exact hpurge
  · exact fun hmem => hpurge (by simp [hmem])

/-- An artifact is the one of the last grant. -/
theorem Decided.eq_of_latest {before after : List StoreAction} {devices : List AllocatedDevice}
    {artifact current : PreparedArtifact} {entry : Entry}
    (h : Decided (before ++ .recordPrepared w devices artifact :: after) w (some entry))
    (hafter : Ungranted w after) (hcurrent : entry.prepared = some current) :
    current = artifact := by
  obtain ⟨-, -, hlatest⟩ := h.latest entry rfl before devices artifact after rfl hafter
  rw [hcurrent] at hlatest
  split at hlatest
  · cases hlatest
  · exact Option.some.inj hlatest

/-- A device was noted as attached and not noted as detached since. -/
def Marked (w : WorkloadId) (d : DeviceName) (actions : List StoreAction) : Prop :=
  ∃ before after, actions = before ++ .markAttached w d :: after ∧ .markDetached w d ∉ after

theorem marked_concat {action : StoreAction} {actions : List StoreAction} :
    Marked w d (actions ++ [action]) ↔
      action = .markAttached w d ∨ (Marked w d actions ∧ action ≠ .markDetached w d) := by
  constructor
  · rintro ⟨before, after, h, hafter⟩
    rcases concat_eq_append_cons.1 h with ⟨after', rfl, h'⟩ | ⟨-, hx, -⟩
    · simp only [List.mem_append, List.mem_singleton, not_or] at hafter
      exact .inr ⟨⟨before, after', h', hafter.1⟩, fun e => hafter.2 e.symm⟩
    · exact .inl hx.symm
  · rintro (rfl | ⟨⟨before, after, rfl, hafter⟩, hne⟩)
    · exact ⟨actions, [], rfl, List.not_mem_nil⟩
    · exact ⟨before, after ++ [action], by simp, by simp [hafter, hne.symm]⟩

/-- One operation that neither records a grant nor forgets the workload. -/
theorem mem_attached_apply {action : StoreAction} {store : Store} {entry : Entry}
    (hread : store.read w = some entry) (hrecord : Ungranted w [action])
    (hpurge : action ≠ .purge w) :
    ∃ entry', (action.apply store).read w = some entry' ∧ ∀ d, d ∈ entry'.attached ↔
      action = .markAttached w d ∨ (d ∈ entry.attached ∧ action ≠ .markDetached w d) := by
  have hmodify {v : WorkloadId} {f : Entry → Entry} (hv : w = v) :
      (store.modify v f).read w = some (f entry) := by
    rw [hv, Store.read_modify_self, ← hv, hread]
    rfl
  cases action with
  | recordPrepared v devices artifact =>
    have hv : w ≠ v := fun e => hrecord devices artifact (e ▸ List.mem_cons_self)
    exact ⟨entry, (store.read_put_ne _ hv).trans hread, by simp⟩
  | read v => exact ⟨entry, hread, by simp⟩
  | clearPrepared v =>
    by_cases hv : w = v
    · exact ⟨_, hmodify hv, by simp [Entry.unprepare]⟩
    · exact ⟨entry, (store.read_modify_ne _ hv).trans hread, by simp⟩
  | markAttached v device =>
    by_cases hv : w = v
    · refine ⟨_, hmodify hv, fun d => ?_⟩
      simp [Entry.attach, hv, eq_comm]
    · refine ⟨entry, (store.read_modify_ne _ hv).trans hread, fun d => ?_⟩
      simp [Ne.symm hv]
  | markDetached v device =>
    by_cases hv : w = v
    · refine ⟨_, hmodify hv, fun d => ?_⟩
      simp [Entry.detach, hv, eq_comm]
    · refine ⟨entry, (store.read_modify_ne _ hv).trans hread, fun d => ?_⟩
      simp [Ne.symm hv]
  | markNetworkDetached v =>
    by_cases hv : w = v
    · exact ⟨_, hmodify hv, by simp [Entry.leave]⟩
    · exact ⟨entry, (store.read_modify_ne _ hv).trans hread, by simp⟩
  | purge v =>
    have hv : w ≠ v := fun e => hpurge (e ▸ rfl)
    exact ⟨entry, (store.read_purge_ne hv).trans hread, by simp⟩

/-- **What is attached since a grant.** -/
theorem mem_attached_afterAll {store : Store} {entry : Entry} {actions : List StoreAction}
    (hread : store.read w = some entry) (hrecord : Ungranted w actions)
    (hpurge : .purge w ∉ actions) :
    ∃ entry', (store.afterAll actions).read w = some entry' ∧ ∀ d, d ∈ entry'.attached ↔
      Marked w d actions ∨ (d ∈ entry.attached ∧ .markDetached w d ∉ actions) := by
  induction actions using List.reverseRecOn with
  | nil => exact ⟨entry, hread, fun d => by simp [Marked]⟩
  | append_singleton actions action ih =>
    simp only [List.mem_append, List.mem_singleton, not_or] at hpurge
    obtain ⟨middle, hmiddle, hattached⟩ := ih
      (fun devices artifact hmem => hrecord devices artifact (List.mem_append_left _ hmem)) hpurge.1
    obtain ⟨entry', hentry', hattached'⟩ := mem_attached_apply hmiddle
      (fun devices artifact hmem => hrecord devices artifact (List.mem_append_right _ hmem))
      fun e => hpurge.2 e.symm
    refine ⟨entry', by rw [Store.afterAll_append]; exact hentry', fun d => ?_⟩
    rw [hattached', hattached, marked_concat, List.mem_append, List.mem_singleton, not_or]
    grind

/-! ## Two tasks for one workload -/

namespace Lifecycle

/-- What happens to the grants of a workload. -/
inductive AllocationEvent where
  | prepare (devices : List AllocatedDevice)
  | unprepare

/-- What happens to the namespace of a workload. -/
inductive NamespaceEvent where
  | networkReady (ns : Option NamespaceRef)
  | stopping (ns : Option NamespaceRef)
  | removed

def AllocationEvent.job (w : WorkloadId) : AllocationEvent → Job
  | prepare devices => .prepare w devices
  | unprepare => .unprepare w

def NamespaceEvent.job (w : WorkloadId) : NamespaceEvent → Job
  | networkReady ns => .networkReady w ns
  | stopping ns => .stopping w ns
  | removed => .removed w

/-- One job after another. -/
def doAll : List Job → Program Unit
  | [] => done ()
  | job :: jobs => job.program >>= fun _ => doAll jobs

/-- The two tasks. -/
inductive Side where
  | allocation
  | namespaces
  deriving DecidableEq

/-- What the tasks do for a workload. -/
def sides (w : WorkloadId) (grants : List AllocationEvent) (visits : List NamespaceEvent) :
    Side → Program Unit
  | .allocation => doAll (grants.map (·.job w))
  | .namespaces => doAll (visits.map (·.job w))

/-- The two tasks take turns, from an empty record. -/
def racing (r : Relocator σ) (s : σ) (w : WorkloadId) (grants : List AllocationEvent)
    (visits : List NamespaceEvent) (schedule : List Side) : Shared Side σ :=
  (Shared.start (sides w grants visits) ⟨.empty, s⟩).turns r schedule

/-! ### What the tasks may do -/

/-- Grants are recorded as they are prepared, and artifacts are dropped. -/
def allocating (w : WorkloadId) : Rule Unit where
  allows _ action :=
    (∃ devices artifact, action = .recordPrepared w devices artifact ∧
      PreparedArtifact.ofAllocation devices = .ok artifact) ∨ action = .clearPrepared w
  after _ _ _ := ()

/-- Devices are noted as attached only if the artifact that was read last has them. -/
def visiting (w : WorkloadId) : Rule (Option Entry) where
  allows
    | shown, .markAttached v d => v = w ∧ ∃ entry artifact, shown = some entry ∧
        entry.prepared = some artifact ∧ d ∈ artifact.hostNames
    | _, .read v => v = w
    | _, .recordPrepared .. => False
    | _, .clearPrepared _ => False
    | _, .markDetached .. => True
    | _, .markNetworkDetached _ => True
    | _, .purge _ => True
  after
    | _, .read _, entry => entry
    | shown, _, _ => shown

theorem obeys_allocating (w : WorkloadId) (grants : List AllocationEvent) :
    (doAll (grants.map (·.job w))).Obeys (allocating w) () := by
  induction grants with
  | nil => trivial
  | cons event grants ih =>
    refine Obeys.bind (p := (event.job w).program) ?_ fun _ _ => ih
    cases event with
    | prepare devices => exact obeys_prepare fun artifact hok => .inl ⟨devices, artifact, rfl, hok⟩
    | unprepare => exact obeys_unprepare (.inr rfl)

theorem obeys_visiting (w : WorkloadId) (visits : List NamespaceEvent) (shown : Option Entry) :
    (doAll (visits.map (·.job w))).Obeys (visiting w) shown := by
  induction visits generalizing shown with
  | nil => trivial
  | cons event visits ih =>
    refine Obeys.bind (p := (event.job w).program) ?_ fun _ shown => ih shown
    cases event with
    | networkReady ns =>
      refine obeys_networkReady rfl fun entry artifact hprepared device hdevice => ⟨?_, fun _ => rfl⟩
      exact ⟨rfl, entry, artifact, rfl, hprepared, List.mem_map_of_mem hdevice⟩
    | stopping ns =>
      exact obeys_stopping rfl (fun _ _ _ _ _ => ⟨trivial, fun _ => rfl⟩) fun _ => trivial
    | removed => exact obeys_removed trivial

/-- The task that moves devices reads the record. It does so once for each event, first of all. -/
def Begins (x : Side × Act) : Prop := ∃ v shown, x = (.namespaces, .stored (.read v) shown)

theorem afterActs_concat_of_not_begins {past : List (Side × Act)} {x : Side × Act} (h : ¬ Begins x)
    (shown : Option Entry) :
    (visiting w).afterActs shown (actsOf .namespaces (past ++ [x])) =
      (visiting w).afterActs shown (actsOf .namespaces past) := by
  obtain ⟨side, act⟩ := x
  cases side with
  | allocation => simp [actsOf]
  | namespaces =>
    have hact (k : Option Entry) : (visiting w).afterAct k act = k := by
      cases act with
      | stored action response =>
        cases action with
        | read v => exact absurd ⟨v, response, rfl⟩ h
        | _ => rfl
      | called call => rfl
      | noted notice => rfl
    simp [actsOf, Rule.afterActs, hact]

/-- What the task that moves devices has in view is what it read last. -/
theorem exists_last_read {past : List (Side × Act)} {entry : Entry}
    (h : (visiting w).afterActs none (actsOf .namespaces past) = some entry) :
    ∃ before v after, past = before ++ (.namespaces, .stored (.read v) (some entry)) :: after ∧
      ∀ x ∈ after, ¬ Begins x := by
  induction past using List.reverseRecOn with
  | nil => cases h
  | append_singleton past x ih =>
    by_cases hx : Begins x
    · obtain ⟨v, shown, rfl⟩ := hx
      have hshown : shown = some entry := by
        rw [← h]
        simp [actsOf, Rule.afterActs]
        rfl
      subst hshown
      exact ⟨past, v, [], rfl, fun _ hx => absurd hx List.not_mem_nil⟩
    · rw [afterActs_concat_of_not_begins hx] at h
      obtain ⟨before, v, after, rfl, hafter⟩ := ih h
      refine ⟨before, v, after ++ [x], by simp, fun y hy => ?_⟩
      rcases List.mem_append.1 hy with hy | hy
      · exact hafter y hy
      · rwa [List.mem_singleton.1 hy]

/-! ### What the tasks have done -/

section Racing

variable (r : Relocator σ) (s : σ) (grants : List AllocationEvent) (visits : List NamespaceEvent)
  (schedule : List Side)

theorem side_of_record {before after : List (Side × Act)} {side : Side} {v : WorkloadId}
    {devices : List AllocatedDevice} {artifact : PreparedArtifact}
    {lost : (StoreAction.recordPrepared v devices artifact).Response}
    (h : (racing r s w grants visits schedule).past =
      before ++ (side, .stored (.recordPrepared v devices artifact) lost) :: after) :
    side = .allocation ∧ PreparedArtifact.ofAllocation devices = .ok artifact := by
  cases side with
  | allocation =>
    rcases Shared.allows_of_past (sides w grants visits) .allocation
      (obeys_allocating w grants) h with ⟨devices', artifact', he, hok⟩ | he
    · cases he
      exact ⟨rfl, hok⟩
    · cases he
  | namespaces => exact (Shared.allows_of_past (sides w grants visits) .namespaces
      (obeys_visiting w visits none) h).elim

/-- **A note that a device is attached has a reading before it that showed the device.** -/
theorem exists_reading_of_mark {side : Side} {before after : List (Side × Act)} {u : Unit}
    (h : (racing r s w grants visits schedule).past =
      before ++ (side, .stored (.markAttached w d) u) :: after) :
    side = .namespaces ∧ ∃ earlier shown artifact later,
      before = earlier ++ (.namespaces, .stored (.read w) (some shown)) :: later ∧
      (∀ x ∈ later, ¬ Begins x) ∧ shown.prepared = some artifact ∧ d ∈ artifact.hostNames := by
  cases side with
  | allocation =>
    rcases Shared.allows_of_past (sides w grants visits) .allocation
      (obeys_allocating w grants) h with ⟨_, _, he, -⟩ | he <;> cases he
  | namespaces =>
    obtain ⟨-, shown, artifact, hshown, hprepared, hd⟩ :=
      Shared.allows_of_past (sides w grants visits) .namespaces
      (obeys_visiting w visits none) h
    obtain ⟨earlier, v, later, rfl, hlater⟩ := exists_last_read hshown
    rw [List.append_assoc, List.cons_append] at h
    obtain rfl : v = w := Shared.allows_of_past (sides w grants visits) .namespaces
      (obeys_visiting w visits none) h
    exact ⟨rfl, earlier, shown, artifact, later, rfl, hlater, hprepared, hd⟩

/-- The record, and every entry that was read, is what was done to it. -/
theorem decided_racing :
    Decided (actions (racing r s w grants visits schedule).past) w
        ((racing r s w grants visits schedule).world.store.read w) ∧
      ∀ before side shown after, (racing r s w grants visits schedule).past =
        before ++ (side, .stored (.read w) shown) :: after → Decided (actions before) w shown := by
  refine decided_turns fun devices artifact h => ?_
  obtain ⟨past₁, past₂, hactions⟩ := List.append_of_mem h
  obtain ⟨past₁, side, lost, past₂, hpast, -, -⟩ := exists_of_actions_eq hactions
  exact (side_of_record r s grants visits schedule hpast).2

/-- The last grant, while there is a record. -/
theorem exists_last_grant {entry : Entry}
    (hread : (racing r s w grants visits schedule).world.store.read w = some entry) :
    ∃ past₁ devices artifact lost past₂, (racing r s w grants visits schedule).past =
        past₁ ++ (.allocation, .stored (.recordPrepared w devices artifact) lost) :: past₂ ∧
      Ungranted w (actions past₂) := by
  obtain ⟨before, devices, artifact, after, hactions, hlast⟩ :=
    ((decided_racing r s grants visits schedule).1.isSome_iff.1
      (Option.isSome_of_eq_some hread)).exists_last
  obtain ⟨past₁, side, lost, past₂, hpast, -, rfl⟩ := exists_of_actions_eq hactions
  obtain ⟨rfl, -⟩ := side_of_record r s grants visits schedule hpast
  exact ⟨past₁, devices, artifact, lost, past₂, hpast, hlast⟩

/-- The record of the workload has the artifact of the last grant. -/
theorem eq_of_last_grant {past₁ past₂ : List (Side × Act)} {side : Side}
    {devices : List AllocatedDevice} {artifact current : PreparedArtifact}
    {lost : (StoreAction.recordPrepared w devices artifact).Response} {entry : Entry}
    (hpast : (racing r s w grants visits schedule).past =
      past₁ ++ (side, .stored (.recordPrepared w devices artifact) lost) :: past₂)
    (hlast : Ungranted w (actions past₂))
    (hread : (racing r s w grants visits schedule).world.store.read w = some entry)
    (hcurrent : entry.prepared = some current) : current = artifact := by
  have hdecided := (decided_racing (w := w) r s grants visits schedule).1
  rw [hread, hpast, actions_append_stored] at hdecided
  exact hdecided.eq_of_latest hlast hcurrent

/-- A device that the last grant lacks is attached if it was noted since. -/
theorem mem_attached_iff_marked {past₁ past₂ : List (Side × Act)} {side : Side}
    {devices : List AllocatedDevice} {artifact : PreparedArtifact}
    {lost : (StoreAction.recordPrepared w devices artifact).Response} {entry : Entry}
    (hpast : (racing r s w grants visits schedule).past =
      past₁ ++ (side, .stored (.recordPrepared w devices artifact) lost) :: past₂)
    (hlast : Ungranted w (actions past₂))
    (hread : (racing r s w grants visits schedule).world.store.read w = some entry)
    (hd : d ∉ artifact.hostNames) : d ∈ entry.attached ↔ Marked w d (actions past₂) := by
  have hactions : actions (racing r s w grants visits schedule).past =
      actions past₁ ++ .recordPrepared w devices artifact :: actions past₂ := by
    rw [hpast, actions_append_stored]
  have hgranted := (decided_racing (w := w) r s grants visits schedule).1.isSome_iff.1
    (Option.isSome_of_eq_some hread)
  have hpurge := hgranted.not_mem_purge hactions hlast
  rw [show (racing r s w grants visits schedule).world.store = Store.empty.afterAll
      (actions (racing r s w grants visits schedule).past) from Shared.store_turns schedule,
    hactions, List.append_cons, Store.afterAll_append, Store.afterAll_append,
    Store.afterAll_singleton] at hread
  obtain ⟨entry', hentry', hattached⟩ :=
    mem_attached_afterAll (Store.read_put_self _ w _) hlast hpurge
  obtain rfl : entry' = entry := Option.some.inj (hentry'.symm.trans hread)
  -- a grant keeps no device that it lacks
  simp [hattached, Entry.prepare, hd]

end Racing

/-! ### Overtaking -/

/-- A device was moved in on the strength of an artifact that had it, and meanwhile another grant was
recorded that has it no more. -/
def Overtaken (past : List (Side × Act)) (w : WorkloadId) (d : DeviceName) : Prop :=
  ∃ before shown artifact between devices artifact' lost later after,
    -- one event reads the artifact and later notes the device
    past = before ++ (.namespaces, .stored (.read w) (some shown)) ::
      (between ++ (.allocation, .stored (.recordPrepared w devices artifact') lost) ::
        (later ++ (.namespaces, .stored (.markAttached w d) ()) :: after)) ∧
    (∀ x ∈ between ++ later, ¬ Begins x) ∧ shown.prepared = some artifact ∧
    d ∈ artifact.hostNames ∧
    -- the grant in between is the last one
    d ∉ artifact'.hostNames ∧ Ungranted w (actions (later ++ after)) ∧
    -- and the device has not been noted as back
    .markDetached w d ∉ actions after

/-- A device that was overtaken was noted after the last grant, which lacks it. -/
theorem Overtaken.exists_last_grant {past : List (Side × Act)} (h : Overtaken past w d) :
    ∃ past₁ devices artifact lost past₂,
      past = past₁ ++ (.allocation, .stored (.recordPrepared w devices artifact) lost) :: past₂ ∧
      Ungranted w (actions past₂) ∧ d ∉ artifact.hostNames ∧ Marked w d (actions past₂) := by
  obtain ⟨before, shown, -, between, devices, artifact, lost, later, after, rfl, -, -, -, hd, hlast,
    hafter⟩ := h
  have hsince : actions (later ++ (Side.namespaces, .stored (.markAttached w d) ()) :: after) =
      actions later ++ .markAttached w d :: actions after := actions_append_stored ..
  refine ⟨before ++ (.namespaces, .stored (.read w) (some shown)) :: between, devices, artifact,
    lost, later ++ (.namespaces, .stored (.markAttached w d) ()) :: after, by simp, ?_, hd,
    actions later, actions after, hsince, hafter⟩
  intro devices artifact hmem
  refine hlast devices artifact ?_
  rw [hsince, List.mem_append, List.mem_cons] at hmem
  rw [actions_append, List.mem_append]
  exact hmem.imp_right fun h => h.resolve_left nofun

variable (r : Relocator σ) (s : σ) (grants : List AllocationEvent) (visits : List NamespaceEvent)
  (schedule : List Side)

/-- **What is noted after a grant that lacks it was overtaken by the grant.** -/
theorem overtaken_of_marked {past₁ past₂ : List (Side × Act)} {devices : List AllocatedDevice}
    {artifact : PreparedArtifact} {lost : (StoreAction.recordPrepared w devices artifact).Response}
    (hpast : (racing r s w grants visits schedule).past =
      past₁ ++ (.allocation, .stored (.recordPrepared w devices artifact) lost) :: past₂)
    (hlast : Ungranted w (actions past₂)) (hd : d ∉ artifact.hostNames)
    (hmarked : Marked w d (actions past₂)) :
    Overtaken (racing r s w grants visits schedule).past w d := by
  obtain ⟨before, after, hsince, hafter⟩ := hmarked
  obtain ⟨later, side, ⟨⟩, rest, rfl, rfl, rfl⟩ := exists_of_actions_eq hsince
  have hnoted : (racing r s w grants visits schedule).past =
      (past₁ ++ (.allocation, .stored (.recordPrepared w devices artifact) lost) :: later) ++
        (side, .stored (.markAttached w d) ()) :: rest := by
    simpa using hpast
  obtain ⟨rfl, earlier, shown, artifact', later', hbefore, hsame, hprepared, hd'⟩ :=
    exists_reading_of_mark r s grants visits schedule hnoted
  rcases append_cons_eq_append_cons hbefore with
    ⟨between, hearlier, hlater⟩ | ⟨-, hx, -⟩ | ⟨between, hpast₁, hlater'⟩
  · -- the reading came after the last grant, and showed its artifact
    exfalso
    have hread : (racing r s w grants visits schedule).past =
        (past₁ ++ (.allocation, .stored (.recordPrepared w devices artifact) lost) :: between) ++
          (.namespaces, .stored (.read w) (some shown)) ::
            (later' ++ (.namespaces, .stored (.markAttached w d) ()) :: rest) := by
      rw [hnoted, hlater]
      simp
    have hbetween : Ungranted w (actions between) := fun devices artifact hmem =>
      hlast devices artifact (by
        rw [hlater, actions_append, actions_append]
        exact List.mem_append_left _ (List.mem_append_left _ hmem))
    have hdecided := (decided_racing r s grants visits schedule).2 _ _ _ _ hread
    rw [actions_append_stored] at hdecided
    exact hd (hdecided.eq_of_latest hbetween hprepared ▸ hd')
  · cases hx
  · refine ⟨earlier, shown, artifact', between, devices, artifact, lost, later, rest, ?_, ?_,
      hprepared, hd', hd, ?_, hafter⟩
    · rw [hnoted, hpast₁]
      simp
    · rw [hlater'] at hsame
      intro x hx
      rcases List.mem_append.1 hx with hx | hx
      · exact hsame x (List.mem_append_left _ hx)
      · exact hsame x (List.mem_append_right _ (List.mem_cons_of_mem _ hx))
    · intro devices artifact hmem
      refine hlast devices artifact ?_
      rw [actions_append] at hmem ⊢
      exact (List.mem_append.1 hmem).elim (List.mem_append_left _)
        fun h => List.mem_append_right _ (List.mem_cons_of_mem _ h)

/-- **Attached devices outside the artifact are those that were overtaken.** -/
theorem attached_outside_iff_overtaken (d : DeviceName) :
    let state := racing r s w grants visits schedule
    (∃ entry artifact, state.world.store.read w = some entry ∧ entry.prepared = some artifact ∧
      d ∈ entry.attached ∧ d ∉ artifact.hostNames) ↔
    state.world.store.isPrepared w ∧ Overtaken state.past w d := by
  intro state
  constructor
  · rintro ⟨entry, artifact, hread, hprepared, hattached, hd⟩
    obtain ⟨past₁, devices, artifact', lost, past₂, hpast, hlast⟩ :=
      exists_last_grant r s grants visits schedule hread
    obtain rfl := eq_of_last_grant r s grants visits schedule hpast hlast hread hprepared
    refine ⟨by simp [Store.isPrepared, hread, hprepared],
      overtaken_of_marked r s grants visits schedule hpast hlast hd ?_⟩
    exact (mem_attached_iff_marked r s grants visits schedule hpast hlast hread hd).1 hattached
  · rintro ⟨hprepared, hovertaken⟩
    obtain ⟨entry, hread, hsome⟩ := (Option.any_eq_true _ _).1 hprepared
    obtain ⟨current, hcurrent⟩ := Option.isSome_iff_exists.1 hsome
    obtain ⟨past₁, devices, artifact, lost, past₂, hpast, hlast, hd, hmarked⟩ :=
      hovertaken.exists_last_grant
    obtain rfl := eq_of_last_grant r s grants visits schedule hpast hlast hread hcurrent
    refine ⟨entry, current, hread, hcurrent, ?_, hd⟩
    exact (mem_attached_iff_marked r s grants visits schedule hpast hlast hread hd).2 hmarked

/-- A grant of `eth1` comes in while `eth0`, granted before, is on its way. It stays attached to a
workload whose artifact does not have it. -/
theorem attached_outside_of_race :
    ∃ (w : WorkloadId) (eth0 eth1 : DeviceName),
      let m := ((Memory.empty.addHostDevice "eth0").addHostDevice "eth1").addNamespace
        (.path "ns/w1")
      let state := racing Memory.relocator m w
        [.prepare [.plain eth0 "" ""], .prepare [.plain eth1 "" ""]]
        [.networkReady (some (.path "ns/w1"))]
        [.allocation, .allocation, .namespaces, .namespaces, .namespaces, .allocation, .allocation,
          .namespaces]
      ∃ entry artifact, state.world.store.read w = some entry ∧ entry.prepared = some artifact ∧
        eth0 ∈ entry.attached ∧ eth0 ∉ artifact.hostNames := by
  let eth0 : DeviceName := ⟨"eth0", by decide, by decide, by decide, by decide⟩
  let eth1 : DeviceName := ⟨"eth1", by decide, by decide, by decide, by decide⟩
  let artifact : PreparedArtifact := ⟨[⟨eth1, { LinkConfig.empty with name := some eth1 }, []⟩]⟩
  refine ⟨⟨"w1", by decide, by decide, by decide⟩, eth0, eth1,
    ⟨[.plain eth1 "" ""], some artifact, .networkAttached, SortedSet.empty.insert eth0⟩, artifact,
    ?_, rfl, ?_, ?_⟩
  · cbv
  · exact SortedSet.mem_insert.2 (.inl rfl)
  · decide

end Lifecycle

end NetRelocation
