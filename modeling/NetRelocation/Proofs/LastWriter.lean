import NetRelocation.Proofs.Ledger
import NetRelocation.Proofs.Rules

/-!
# The last writer decides

Any number of operations of the coordinator run at the same time, for any workloads, and only single
operations on the record are undivided. Seven kinds of them change the record of a workload, and
three decide what it is: a grant that is recorded, an artifact that is dropped, a workload that is
forgotten. The others come late from operations that work from what they once read.

**Theorem (`decided_by_last_writer`).** At every moment of every interleaving, and in every answer
that a task was given on the way, a workload has a record exactly if a grant was recorded for it
since it was last forgotten; its devices are those of the last such grant; and it has the artifact of
that grant unless the artifact was dropped later. What decides comes from operations that were asked
to: a grant from a task that prepares it, a drop from a release, an end from a removal.

The induction is on what was done to the record. Late bookkeeping keeps the devices and the artifact
of an entry and makes none (`read_apply_of_not_decides`).
-/

namespace NetRelocation

variable {σ ι : Type} {w : WorkloadId}

/-! ## What decides -/

/-- Whether an operation decides what the record of a workload is. -/
def StoreAction.Decides (w : WorkloadId) : StoreAction → Prop
  | recordPrepared v _ _ => v = w
  | clearPrepared v => v = w
  | purge v => v = w
  | read _ => False
  | markAttached _ _ => False
  | markDetached _ _ => False
  | markNetworkDetached _ => False

/-- A grant was recorded for a workload since it was last forgotten. -/
def Granted (w : WorkloadId) (actions : List StoreAction) : Prop :=
  ∃ before devices artifact after,
    actions = before ++ .recordPrepared w devices artifact :: after ∧ .purge w ∉ after

/-- No grant was recorded for a workload. -/
def Ungranted (w : WorkloadId) (actions : List StoreAction) : Prop :=
  ∀ devices artifact, .recordPrepared w devices artifact ∉ actions

/-- An entry is what the last of some operations make of it. -/
structure Decided (actions : List StoreAction) (w : WorkloadId) (shown : Option Entry) : Prop where
  isSome_iff : shown.isSome ↔ Granted w actions
  latest : ∀ entry, shown = some entry → ∀ before devices artifact after,
    actions = before ++ .recordPrepared w devices artifact :: after → Ungranted w after →
      entry.allocation = devices ∧ PreparedArtifact.ofAllocation devices = .ok artifact ∧
        entry.prepared = if .clearPrepared w ∈ after then none else some artifact
  belongs : ∀ entry artifact, shown = some entry → entry.prepared = some artifact →
    PreparedArtifact.ofAllocation entry.allocation = .ok artifact

/-! ## One more operation -/

theorem read_apply_of_not_decides {action : StoreAction} (h : ¬ action.Decides w) (store : Store) :
    ∃ f : Entry → Entry, (action.apply store).read w = (store.read w).map f ∧
      ∀ entry, (f entry).allocation = entry.allocation ∧ (f entry).prepared = entry.prepared := by
  -- an entry of another workload stays as it is
  have hother {store' : Store} (hread : store'.read w = store.read w) :
      ∃ f : Entry → Entry, store'.read w = (store.read w).map f ∧
        ∀ entry, (f entry).allocation = entry.allocation ∧ (f entry).prepared = entry.prepared :=
    ⟨id, by rw [hread, Option.map_id, id], fun _ => ⟨rfl, rfl⟩⟩
  have hmodify (v : WorkloadId) (g : Entry → Entry)
      (hg : ∀ entry, (g entry).allocation = entry.allocation ∧
        (g entry).prepared = entry.prepared) :
      ∃ f : Entry → Entry, (store.modify v g).read w = (store.read w).map f ∧
        ∀ entry, (f entry).allocation = entry.allocation ∧
          (f entry).prepared = entry.prepared := by
    by_cases hv : w = v
    · subst hv
      exact ⟨g, store.read_modify_self w g, hg⟩
    · exact hother (store.read_modify_ne g hv)
  cases action with
  | recordPrepared v devices artifact => exact hother (store.read_put_ne _ fun e => h e.symm)
  | read v => exact hother rfl
  | clearPrepared v => exact hother (store.read_modify_ne _ fun e => h e.symm)
  | markAttached v device => exact hmodify v _ fun _ => ⟨rfl, rfl⟩
  | markDetached v device => exact hmodify v _ fun _ => ⟨rfl, rfl⟩
  | markNetworkDetached v => exact hmodify v _ fun _ => ⟨rfl, rfl⟩
  | purge v => exact hother (store.read_purge_ne fun e => h e.symm)

/-- An operation that records no grant and forgets nothing leaves a workload its grant. -/
theorem granted_concat {action : StoreAction} {actions : List StoreAction}
    (hrecord : Ungranted w [action]) (hpurge : action ≠ .purge w) :
    Granted w (actions ++ [action]) ↔ Granted w actions := by
  constructor
  · rintro ⟨before, devices, artifact, after, h, hafter⟩
    rcases concat_eq_append_cons.1 h with ⟨after', rfl, hl⟩ | ⟨-, hx, -⟩
    · exact ⟨before, devices, artifact, after', hl, fun hmem => hafter (List.mem_append_left _ hmem)⟩
    · exact absurd (by simp [hx]) (hrecord devices artifact)
  · rintro ⟨before, devices, artifact, after, rfl, hafter⟩
    refine ⟨before, devices, artifact, after ++ [action], by simp, ?_⟩
    simpa [hafter] using hpurge.symm

/-- Where an operation that records no grant comes last, the grants come before it. -/
theorem exists_of_concat {action : StoreAction} {actions before after : List StoreAction}
    {devices : List AllocatedDevice} {artifact : PreparedArtifact} (hrecord : Ungranted w [action])
    (h : actions ++ [action] = before ++ .recordPrepared w devices artifact :: after) :
    ∃ after', after = after' ++ [action] ∧
      actions = before ++ .recordPrepared w devices artifact :: after' := by
  rcases concat_eq_append_cons.1 h with h | ⟨-, hx, -⟩
  · exact h
  · exact absurd (by simp [hx]) (hrecord devices artifact)

namespace Decided

variable {actions : List StoreAction} {store : Store}

theorem recordPrepared {devices : List AllocatedDevice} {artifact : PreparedArtifact}
    (hok : PreparedArtifact.ofAllocation devices = .ok artifact) :
    Decided (actions ++ [.recordPrepared w devices artifact]) w
      ((store.recordPrepared w devices artifact).read w) := by
  rw [Store.recordPrepared, Store.read_put_self]
  refine ⟨?_, fun entry he before devices' artifact' after h hafter => ?_,
    fun entry artifact' he hp => ?_⟩
  · exact iff_of_true rfl ⟨actions, devices, artifact, [], rfl, List.not_mem_nil⟩
  · cases he
    rcases concat_eq_append_cons.1 h with ⟨after', rfl, -⟩ | ⟨rfl, hx, -⟩
    · exact absurd (List.mem_append_right _ List.mem_cons_self) (hafter devices artifact)
    · cases hx
      exact ⟨rfl, hok, by simp [Entry.prepare]⟩
  · cases he
    cases hp
    exact hok

theorem clearPrepared (h : Decided actions w (store.read w)) :
    Decided (actions ++ [.clearPrepared w]) w ((store.clearPrepared w).read w) := by
  have hrecord : Ungranted w [.clearPrepared w] := by simp [Ungranted]
  rw [Store.clearPrepared, Store.read_modify_self]
  refine ⟨?_, fun entry he before devices artifact after hl hafter => ?_,
    fun entry artifact he hp => ?_⟩
  · rw [Option.isSome_map, h.isSome_iff, granted_concat hrecord (by simp)]
  · obtain ⟨old, hold, rfl⟩ := Option.map_eq_some_iff.1 he
    obtain ⟨after', rfl, hbefore⟩ := exists_of_concat hrecord hl
    obtain ⟨hallocation, hok, -⟩ := h.latest old hold before devices artifact after' hbefore
      fun d a hmem => hafter d a (List.mem_append_left _ hmem)
    exact ⟨hallocation, hok, by simp [Entry.unprepare]⟩
  · obtain ⟨old, -, rfl⟩ := Option.map_eq_some_iff.1 he
    cases hp

theorem purge : Decided (actions ++ [.purge w]) w ((store.purge w).read w) := by
  rw [Store.read_purge_self]
  refine ⟨iff_of_false Bool.false_ne_true ?_, nofun, nofun⟩
  rintro ⟨before, devices, artifact, after, h, hafter⟩
  obtain ⟨after', rfl, -⟩ := exists_of_concat (by simp [Ungranted]) h
  exact hafter (by simp)

theorem keep {action : StoreAction} (hd : ¬ action.Decides w)
    (h : Decided actions w (store.read w)) :
    Decided (actions ++ [action]) w ((action.apply store).read w) := by
  have hrecord : Ungranted w [action] := fun devices artifact hmem => by
    rw [← List.mem_singleton.1 hmem] at hd
    exact hd rfl
  have hpurge : action ≠ .purge w := fun e => hd (e ▸ rfl)
  have hclear : .clearPrepared w ≠ action := fun e => hd (e ▸ rfl)
  obtain ⟨f, hread, hf⟩ := read_apply_of_not_decides hd store
  rw [hread]
  refine ⟨?_, fun entry he before devices artifact after hl hafter => ?_,
    fun entry artifact he hp => ?_⟩
  · rw [Option.isSome_map, h.isSome_iff, granted_concat hrecord hpurge]
  · obtain ⟨old, hold, rfl⟩ := Option.map_eq_some_iff.1 he
    obtain ⟨after', rfl, hbefore⟩ := exists_of_concat hrecord hl
    obtain ⟨hallocation, hok, hprepared⟩ := h.latest old hold before devices artifact after' hbefore
      fun d a hmem => hafter d a (List.mem_append_left _ hmem)
    rw [(hf old).1, (hf old).2, hprepared]
    exact ⟨hallocation, hok, by simp [hclear]⟩
  · obtain ⟨old, hold, rfl⟩ := Option.map_eq_some_iff.1 he
    rw [(hf old).2] at hp
    rw [(hf old).1]
    exact h.belongs old artifact hold hp

/-- **One more operation decides as it is told.** -/
theorem apply {action : StoreAction} (h : Decided actions w (store.read w))
    (hok : ∀ devices artifact, action = .recordPrepared w devices artifact →
      PreparedArtifact.ofAllocation devices = .ok artifact) :
    Decided (actions ++ [action]) w ((action.apply store).read w) := by
  by_cases hd : action.Decides w
  · cases action with
    | recordPrepared v devices artifact =>
      cases hd
      exact .recordPrepared (hok devices artifact rfl)
    | clearPrepared v =>
      cases hd
      exact h.clearPrepared
    | purge v =>
      cases hd
      exact .purge
    | read v => exact hd.elim
    | markAttached v device => exact hd.elim
    | markDetached v device => exact hd.elim
    | markNetworkDetached v => exact hd.elim
  · exact h.keep hd

end Decided

/-- **What was done decides.** -/
theorem decided_afterAll {actions : List StoreAction}
    (hok : ∀ devices artifact, .recordPrepared w devices artifact ∈ actions →
      PreparedArtifact.ofAllocation devices = .ok artifact) :
    Decided actions w ((Store.empty.afterAll actions).read w) := by
  induction actions using List.reverseRecOn with
  | nil =>
    refine ⟨iff_of_false Bool.false_ne_true ?_, nofun, nofun⟩
    rintro ⟨before, devices, artifact, after, h, -⟩
    cases before <;> cases h
  | append_singleton actions action ih =>
    rw [Store.afterAll_append, Store.afterAll_singleton]
    refine (ih fun devices artifact hmem => hok devices artifact (List.mem_append_left _ hmem)).apply
      fun devices artifact h => hok devices artifact ?_
    rw [h]
    exact List.mem_append_right _ List.mem_cons_self

/-- **What tasks did decides.** Every record and every entry that was read is what the operations
before it make of it. -/
theorem decided_turns [DecidableEq ι] {r : Relocator σ} {s : σ} {tasks : ι → Program Unit}
    {schedule : List ι} (hok : ∀ devices artifact, .recordPrepared w devices artifact ∈
      actions ((Shared.start tasks ⟨.empty, s⟩).turns r schedule).past →
        PreparedArtifact.ofAllocation devices = .ok artifact) :
    let state := (Shared.start tasks ⟨.empty, s⟩).turns r schedule
    Decided (actions state.past) w (state.world.store.read w) ∧
      ∀ before i shown after, state.past = before ++ (i, .stored (.read w) shown) :: after →
        Decided (actions before) w shown := by
  refine ⟨?_, fun before i shown after h => ?_⟩
  · rw [Shared.store_turns]
    exact decided_afterAll hok
  · rw [show shown = _ from Shared.response_of_past h]
    refine decided_afterAll fun devices artifact hmem => hok devices artifact ?_
    rw [h, actions_append]
    exact List.mem_append_left _ hmem

/-! ## Tasks -/

namespace Lifecycle

open Program

/-- What a task is sent to do: one job, or to prepare several grants. -/
inductive Errand where
  | single (job : Job)
  | batch (claims : List Claim)

namespace Errand

/-- The program of an errand. -/
def program : Errand → Program Unit
  | single job => job.program >>= fun _ => done ()
  | batch claims => prepareBatch claims >>= fun _ => done ()

/-- The grants that an errand prepares. -/
def claims : Errand → List Claim
  | single (.prepare w devices) => [⟨w, devices⟩]
  | single _ => []
  | batch claims => claims

/-- What an errand does that decides. -/
inductive Writes : Errand → StoreAction → Prop
  | grant {errand : Errand} {claim : Claim} {artifact : PreparedArtifact}
      (hclaim : claim ∈ errand.claims)
      (hok : PreparedArtifact.ofAllocation claim.devices = .ok artifact) :
      Writes errand (.recordPrepared claim.workload claim.devices artifact)
  | release (w : WorkloadId) : Writes (single (.unprepare w)) (.clearPrepared w)
  | removal (w : WorkloadId) : Writes (single (.removed w)) (.purge w)

/-- Only what an errand does that decides is allowed to decide. -/
def writing (errand : Errand) : Rule Unit where
  allows _ action := ∀ w, action.Decides w → errand.Writes action
  after _ _ _ := ()

theorem obeys_writing (errand : Errand) : errand.program.Obeys errand.writing () := by
  have hidle {action : StoreAction} (h : ∀ w, ¬ action.Decides w) :
      errand.writing.Passes () action := ⟨fun w hd => (h w hd).elim, fun _ => rfl⟩
  cases errand with
  | single job =>
    show (job.program >>= fun _ => done ()).Obeys _ _
    refine Obeys.bind ?_ fun _ _ => trivial
    cases job with
    | prepare w devices =>
      have hclaim : ⟨w, devices⟩ ∈ claims (single (.prepare w devices)) := List.mem_cons_self
      exact obeys_prepare fun artifact hok _ _ => .grant hclaim hok
    | unprepare w => exact obeys_unprepare fun _ _ => .release w
    | networkReady w ns =>
      exact obeys_networkReady (hidle fun _ => id).1 fun _ _ _ _ _ => hidle fun _ => id
    | stopping w ns =>
      exact obeys_stopping (hidle fun _ => id).1 (fun _ _ _ _ _ => hidle fun _ => id)
        fun _ => (hidle fun _ => id).1
    | removed w => exact obeys_removed fun _ _ => .removal w
  | batch claims =>
    show (prepareBatch claims >>= fun _ => done ()).Obeys _ _
    refine Obeys.bind (obeys_prepareBatch ?_ ()) fun _ _ => trivial
    exact fun claim hclaim artifact _ hok _ _ => Writes.grant hclaim hok

theorem ofAllocation_of_writes {errand : Errand} {w : WorkloadId} {devices : List AllocatedDevice}
    {artifact : PreparedArtifact} (h : errand.Writes (.recordPrepared w devices artifact)) :
    PreparedArtifact.ofAllocation devices = .ok artifact := by
  cases h with
  | grant _ hok => exact hok

theorem owes_of_writes {errand : Errand} {action : StoreAction} (h : errand.Writes action) :
    errand.program.Owes action := by
  cases h with
  | @grant _ claim artifact hclaim hok =>
    cases errand with
    | single job =>
      cases job with
      | prepare w devices =>
        rw [List.mem_singleton.1 hclaim] at hok ⊢
        exact Owes.bind_left (p := prepare w devices) (owes_prepare hok)
      | _ => cases hclaim
    | batch claims => exact Owes.bind_left (p := prepareBatch claims) (owes_prepareBatch hclaim hok)
  | release w => exact Owes.bind_left (p := unprepare w) (Or.inl rfl)
  | removal w => exact Owes.bind_left (p := removed w) (Or.inl rfl)

end Errand

/-! ## Every interleaving -/

/-- Tasks that start with an empty record and take turns. -/
def interleaved [DecidableEq ι] (r : Relocator σ) (s : σ) (errands : ι → Errand)
    (schedule : List ι) : Shared ι σ :=
  (Shared.start (fun i => (errands i).program) ⟨.empty, s⟩).turns r schedule

variable [DecidableEq ι] (r : Relocator σ) (s : σ) (errands : ι → Errand) (schedule : List ι)

theorem writes_of_past {i : ι} {action : StoreAction} {response : action.Response}
    (h : (i, .stored action response) ∈ (interleaved r s errands schedule).past)
    (hd : action.Decides w) : (errands i).Writes action := by
  obtain ⟨before, after, hpast⟩ := List.append_of_mem h
  have hallows : (errands i).writing.allows ((errands i).writing.afterActs () (actsOf i before))
      action :=
    Shared.allows_of_past (fun i => (errands i).program) i (errands i).obeys_writing hpast
  exact hallows w hd

theorem ofAllocation_of_past (w : WorkloadId) (devices : List AllocatedDevice)
    (artifact : PreparedArtifact) (h : .recordPrepared w devices artifact ∈
      actions (interleaved r s errands schedule).past) :
    PreparedArtifact.ofAllocation devices = .ok artifact := by
  obtain ⟨⟨i, act⟩, hmem, hact⟩ := List.mem_filterMap.1 h
  cases act with
  | stored action response =>
    cases hact
    exact Errand.ofAllocation_of_writes (writes_of_past r s errands schedule hmem rfl)
  | called call => cases hact
  | noted notice => cases hact

/-- **The last writer decides.** At every moment of every interleaving the record of a workload is
what the last of the deciding operations make of it; so was every entry that a task was shown. What
decides was done by a task that was asked to, and a task that is done has done it. -/
theorem decided_by_last_writer (r : Relocator σ) (s : σ) (errands : ι → Errand)
    (schedule : List ι) :
    let state := interleaved r s errands schedule
    (∀ w, Decided (actions state.past) w (state.world.store.read w)) ∧
    (∀ w before i shown after, state.past = before ++ (i, .stored (.read w) shown) :: after →
      Decided (actions before) w shown) ∧
    (∀ w i action response, (i, .stored action response) ∈ state.past → action.Decides w →
      (errands i).Writes action) ∧
    ∀ i action, (errands i).Writes action → state.tasks i = .done () →
      ∃ response, (i, .stored action response) ∈ state.past := by
  intro state
  have hdecided (w : WorkloadId) := decided_turns (ofAllocation_of_past r s errands schedule w)
  exact ⟨fun w => (hdecided w).1, fun w => (hdecided w).2,
    fun w i action response => writes_of_past r s errands schedule,
    fun i action h => Shared.mem_past_of_owes _ i (Errand.owes_of_writes h)⟩

end Lifecycle

end NetRelocation
