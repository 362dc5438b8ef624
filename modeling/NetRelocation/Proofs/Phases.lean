import NetRelocation.Proofs.LastWriter

/-!
# Where a workload stands

The record of a workload has its phase beside the artifact and the attached devices. Seven kinds of
changes are made to it, each to some of the three and under a condition of its own, and tasks that
run at the same time make them in any order.

**The phases** (`Phase.next`). The phase after a change is decided by the phase before it, whatever
else the record has. A workload whose devices were once moved in stands behind its preparation for
good: only being forgotten takes it back.

**Theorem (`phase_fits_record`).** After any changes in any order, every record has a phase. It is
`allocated` only while there is neither an artifact nor an attached device, and `prepared` only
while there is an artifact and no attached device; so attached devices mean that the network was
attached or detached. A workload that came to one of these two phases is in one of them until it is
purged. The record of tasks that take turns is made by such changes.

What a change does to the record of its workload is said once (`Change.effect`); the phase fits the
record (`Entry.Coherent`) because every effect keeps that.
-/

namespace NetRelocation

variable {σ ι : Type} {w : WorkloadId}

/-! ## Changes -/

/-- A change of the record: a grant that is noted before it is prepared, or an operation of a
task. -/
inductive Change where
  | recordAllocation (w : WorkloadId) (devices : List AllocatedDevice)
  | act (action : StoreAction)

/-- What an operation does to the record of its workload. -/
def StoreAction.effect : StoreAction → Option Entry → Option Entry
  | recordPrepared _ devices artifact, shown =>
    some ((shown.getD (.ofGrant [])).prepare devices artifact)
  | read _, shown => shown
  | clearPrepared _, shown => shown.map Entry.unprepare
  | markAttached _ device, shown => shown.map (·.attach device)
  | markDetached _ device, shown => shown.map (·.detach device)
  | markNetworkDetached _, shown => shown.map Entry.leave
  | purge _, _ => none

namespace Change

def workload : Change → WorkloadId
  | recordAllocation w _ => w
  | act action => action.workload

/-- The record after a change. -/
def apply : Change → Store → Store
  | recordAllocation w devices, store => store.recordAllocation w devices
  | act action, store => action.apply store

/-- What a change does to the record of its workload. -/
def effect : Change → Option Entry → Option Entry
  | recordAllocation _ devices, some entry => some { entry with allocation := devices }
  | recordAllocation _ devices, none => some (.ofGrant devices)
  | act action, shown => action.effect shown

theorem read_apply_self (change : Change) (store : Store) :
    (change.apply store).read change.workload = change.effect (store.read change.workload) := by
  cases change with
  | recordAllocation w devices =>
    show (store.recordAllocation w devices).read w = effect _ (store.read w)
    unfold Store.recordAllocation
    cases store.read w with
    | none => exact store.read_put_self w _
    | some entry => exact store.read_put_self w _
  | act action =>
    cases action with
    | recordPrepared w devices artifact => exact store.read_put_self w _
    | read w => rfl
    | clearPrepared w => exact store.read_modify_self w _
    | markAttached w device => exact store.read_modify_self w _
    | markDetached w device => exact store.read_modify_self w _
    | markNetworkDetached w => exact store.read_modify_self w _
    | purge w => exact store.read_purge_self w

theorem read_apply_ne {change : Change} (h : w ≠ change.workload) (store : Store) :
    (change.apply store).read w = store.read w := by
  cases change with
  | recordAllocation v devices =>
    show (store.recordAllocation v devices).read w = _
    unfold Store.recordAllocation
    cases store.read v with
    | none => exact store.read_put_ne _ h
    | some entry => exact store.read_put_ne _ h
  | act action => exact StoreAction.read_apply_of_ne h store

end Change

/-- The record after one change and another. -/
def Store.afterChanges (store : Store) (changes : List Change) : Store :=
  changes.foldl (fun store change => change.apply store) store

theorem Store.afterChanges_append (store : Store) (l m : List Change) :
    store.afterChanges (l ++ m) = (store.afterChanges l).afterChanges m := List.foldl_append

theorem Store.afterChanges_concat (store : Store) (l : List Change) (change : Change) :
    store.afterChanges (l ++ [change]) = change.apply (store.afterChanges l) := by
  rw [afterChanges_append]
  rfl

theorem Store.afterChanges_map_act (store : Store) (actions : List StoreAction) :
    store.afterChanges (actions.map .act) = store.afterAll actions := List.foldl_map

/-! ## What a phase says -/

namespace Entry

/-- The phase fits what else is in the record. -/
structure Coherent (entry : Entry) : Prop where
  known : entry.phase ≠ .unknown
  allocated : entry.phase = .allocated → entry.prepared = none ∧ entry.attached = .empty
  prepared : entry.phase = .prepared → entry.prepared.isSome = true ∧ entry.attached = .empty

variable {entry : Entry}

theorem coherent_ofGrant (devices : List AllocatedDevice) : (ofGrant devices).Coherent :=
  ⟨nofun, fun _ => ⟨rfl, rfl⟩, nofun⟩

theorem coherent_of_late (h : entry.phase = .networkAttached ∨ entry.phase = .networkDetached) :
    entry.Coherent := by
  constructor <;> rcases h with h | h <;> simp [h]

theorem Coherent.prepare (h : entry.Coherent) (devices : List AllocatedDevice)
    (artifact : PreparedArtifact) : (entry.prepare devices artifact).Coherent := by
  -- what is kept of no attached devices is none
  have hkeep (he : entry.attached = .empty) :
      (entry.prepare devices artifact).attached = .empty := by
    rw [Entry.prepare, he]
    rfl
  cases hphase : entry.phase with
  | unknown => exact absurd hphase h.known
  | allocated =>
    have hnow : (entry.prepare devices artifact).phase = .prepared := by
      rw [Entry.prepare, hphase]
    exact ⟨by simp [hnow], by simp [hnow], fun _ => ⟨rfl, hkeep (h.allocated hphase).2⟩⟩
  | prepared =>
    have hnow : (entry.prepare devices artifact).phase = .prepared := by
      rw [Entry.prepare, hphase]
    exact ⟨by simp [hnow], by simp [hnow], fun _ => ⟨rfl, hkeep (h.prepared hphase).2⟩⟩
  | networkAttached =>
    refine coherent_of_late (.inl ?_)
    rw [Entry.prepare, hphase]
  | networkDetached =>
    refine coherent_of_late (.inr ?_)
    rw [Entry.prepare, hphase]

theorem Coherent.unprepare (h : entry.Coherent) : entry.unprepare.Coherent := by
  by_cases hphase : entry.phase = .prepared
  · have hnow : entry.unprepare.phase = .allocated := if_pos hphase
    exact ⟨by simp [hnow], fun _ => ⟨rfl, (h.prepared hphase).2⟩, by simp [hnow]⟩
  · have hnow : entry.unprepare.phase = entry.phase := if_neg hphase
    exact ⟨hnow ▸ h.known, fun ha => ⟨rfl, (h.allocated (hnow ▸ ha)).2⟩,
      fun hp => absurd (hnow ▸ hp) hphase⟩

theorem coherent_attach (entry : Entry) (device : DeviceName) : (entry.attach device).Coherent :=
  coherent_of_late (.inl rfl)

theorem Coherent.detach (h : entry.Coherent) (device : DeviceName) :
    (entry.detach device).Coherent := by
  have hkeep (he : entry.attached = .empty) : (entry.detach device).attached = .empty := by
    rw [Entry.detach, he]
    rfl
  exact ⟨h.known, fun ha => ⟨(h.allocated ha).1, hkeep (h.allocated ha).2⟩,
    fun hp => ⟨(h.prepared hp).1, hkeep (h.prepared hp).2⟩⟩

theorem coherent_leave (entry : Entry) : entry.leave.Coherent := coherent_of_late (.inr rfl)

theorem Coherent.late_of_attached (h : entry.Coherent) (hattached : entry.attached ≠ .empty) :
    entry.phase = .networkAttached ∨ entry.phase = .networkDetached := by
  cases hphase : entry.phase with
  | unknown => exact absurd hphase h.known
  | allocated => exact absurd (h.allocated hphase).2 hattached
  | prepared => exact absurd (h.prepared hphase).2 hattached
  | networkAttached => exact .inl rfl
  | networkDetached => exact .inr rfl

end Entry

/-- **Every effect leaves a phase that fits.** -/
theorem Change.coherent_effect (change : Change) {shown : Option Entry}
    (h : ∀ entry ∈ shown, entry.Coherent) : ∀ entry ∈ change.effect shown, entry.Coherent := by
  -- an operation that changes an entry, if there is one
  have hmap {f : Entry → Entry} (hf : ∀ entry, entry.Coherent → (f entry).Coherent) :
      ∀ entry ∈ shown.map f, entry.Coherent := by
    intro entry hentry
    obtain ⟨old, hold, rfl⟩ := Option.mem_map.1 hentry
    exact hf old (h old hold)
  cases change with
  | recordAllocation w devices =>
    cases shown with
    | none =>
      rintro _ ⟨⟩
      exact Entry.coherent_ofGrant devices
    | some entry =>
      rintro _ ⟨⟩
      obtain ⟨known, allocated, prepared⟩ := h entry rfl
      exact ⟨known, allocated, prepared⟩
  | act action =>
    cases action with
    | recordPrepared w devices artifact =>
      rintro _ ⟨⟩
      refine Entry.Coherent.prepare ?_ devices artifact
      cases shown with
      | none => exact Entry.coherent_ofGrant []
      | some entry => exact h entry rfl
    | read w => exact h
    | clearPrepared w => exact hmap fun _ hentry => hentry.unprepare
    | markAttached w device => exact hmap fun entry _ => entry.coherent_attach device
    | markDetached w device => exact hmap fun _ hentry => hentry.detach device
    | markNetworkDetached w => exact hmap fun entry _ => entry.coherent_leave
    | purge w => exact nofun

/-- Every record has a phase that fits. -/
def Store.Coherent (store : Store) : Prop := ∀ w, ∀ entry ∈ store.read w, entry.Coherent

theorem Store.Coherent.apply {store : Store} (h : store.Coherent) (change : Change) :
    (change.apply store).Coherent := by
  intro w
  by_cases hw : w = change.workload
  · rw [hw, change.read_apply_self]
    exact change.coherent_effect (h _)
  · rw [Change.read_apply_ne hw]
    exact h w

theorem coherent_afterChanges (changes : List Change) :
    (Store.empty.afterChanges changes).Coherent := by
  induction changes using List.reverseRecOn with
  | nil => exact fun w => nofun
  | append_singleton changes change ih =>
    rw [Store.afterChanges_concat]
    exact ih.apply change

/-! ## The order of phases -/

namespace Phase

/-- The phase of a workload after a change of its record. -/
def next (phase : Phase) : Change → Phase
  | .recordAllocation .. => if phase = unknown then allocated else phase
  | .act (.recordPrepared ..) => if phase = unknown ∨ phase = allocated then prepared else phase
  | .act (.read _) => phase
  | .act (.clearPrepared _) => if phase = prepared then allocated else phase
  | .act (.markAttached ..) => if phase = unknown then unknown else networkAttached
  | .act (.markDetached ..) => phase
  | .act (.markNetworkDetached _) => if phase = unknown then unknown else networkDetached
  | .act (.purge _) => unknown

/-- The workload is past its preparation. -/
def IsLate (phase : Phase) : Prop := phase = networkAttached ∨ phase = networkDetached

/-- Only being forgotten takes a workload back. -/
theorem IsLate.next {phase : Phase} (h : phase.IsLate) {change : Change}
    (hpurge : ∀ w, change ≠ .act (.purge w)) : (phase.next change).IsLate := by
  cases change with
  | recordAllocation w devices => rcases h with rfl | rfl <;> simp [Phase.next, IsLate]
  | act action =>
    cases action with
    | purge w => exact absurd rfl (hpurge w)
    | _ => rcases h with rfl | rfl <;> simp [Phase.next, IsLate]

end Phase

/-- **The phase goes its own way.** It is decided by the phase before, whatever else is in the
record. -/
theorem Store.Coherent.phase_apply {store : Store} (h : store.Coherent) (change : Change) :
    (change.apply store).phase change.workload = (store.phase change.workload).next change := by
  have hknown := fun entry hentry => (h change.workload entry hentry).known
  simp only [Store.phase, change.read_apply_self]
  generalize store.read change.workload = shown at hknown
  cases shown with
  | none =>
    cases change with
    | recordAllocation w devices => rfl
    | act action => cases action <;> rfl
  | some entry =>
    replace hknown := hknown entry rfl
    obtain ⟨allocation, prepared, phase, attached⟩ := entry
    cases change with
    | recordAllocation w devices => exact (if_neg hknown).symm
    | act action => cases action <;> cases phase <;> first | rfl | exact absurd rfl hknown

theorem Store.phase_apply_ne (store : Store) {change : Change} (h : w ≠ change.workload) :
    (change.apply store).phase w = store.phase w := by
  simp only [Store.phase, Change.read_apply_ne h]

/-- Until it is purged a workload stays past its preparation. -/
theorem isLate_afterChanges {store : Store} (hstore : store.Coherent) (h : (store.phase w).IsLate)
    {changes : List Change} (hpurge : .act (.purge w) ∉ changes) :
    ((store.afterChanges changes).phase w).IsLate := by
  induction changes generalizing store with
  | nil => exact h
  | cons change changes ih =>
    rw [List.mem_cons, not_or] at hpurge
    refine ih (hstore.apply change) ?_ hpurge.2
    by_cases hw : w = change.workload
    · subst hw
      rw [hstore.phase_apply]
      refine h.next fun v hv => ?_
      subst hv
      exact hpurge.1 rfl
    · rwa [store.phase_apply_ne hw]

/-! ## Tasks -/

theorem Shared.past_prefix_turns [DecidableEq ι] {r : Relocator σ} (state : Shared ι σ)
    (schedule : List ι) : state.past <+: (state.turns r schedule).past :=
  turns_induction (P := fun later => state.past <+: later.past) List.prefix_rfl
    (fun _ _ _ h _ => h.trans (List.prefix_append _ _)) schedule

/-- **The phase fits the record.** After any changes in any order every record has a phase, without
artifact and attached devices in `allocated`, with an artifact and without attached devices in
`prepared`; attached devices are found in the two later phases only. From these a workload comes
back only by being purged. At each moment of any interleaving the record is made by such changes,
and the later moments only add to them. -/
theorem phase_fits_record [DecidableEq ι] (r : Relocator σ) (s : σ)
    (errands : ι → Lifecycle.Errand) :
    (∀ changes w entry, (Store.empty.afterChanges changes).read w = some entry →
      entry.phase ≠ .unknown ∧
      (entry.phase = .allocated → entry.prepared = none ∧ entry.attached = .empty) ∧
      (entry.phase = .prepared → entry.prepared.isSome = true ∧ entry.attached = .empty) ∧
      (entry.attached ≠ .empty →
        entry.phase = .networkAttached ∨ entry.phase = .networkDetached)) ∧
    (∀ before after w, ((Store.empty.afterChanges before).phase w).IsLate →
      .act (.purge w) ∉ after → ((Store.empty.afterChanges (before ++ after)).phase w).IsLate) ∧
    ∀ schedule, let state := Lifecycle.interleaved r s errands schedule
      state.world.store = Store.empty.afterChanges ((actions state.past).map .act) ∧
      ∀ later, state.past <+: (Lifecycle.interleaved r s errands (schedule ++ later)).past := by
  refine ⟨fun changes w entry hentry => ?_, fun before after w hlate hpurge => ?_,
    fun schedule => ?_⟩
  · have h := coherent_afterChanges changes w entry hentry
    exact ⟨h.known, h.allocated, h.prepared, h.late_of_attached⟩
  · rw [Store.afterChanges_append]
    exact isLate_afterChanges (coherent_afterChanges before) hlate hpurge
  · intro state
    refine ⟨?_, fun later => ?_⟩
    · rw [Store.afterChanges_map_act]
      exact Shared.store_turns schedule
    · have hturns : Lifecycle.interleaved r s errands (schedule ++ later) = state.turns r later :=
        List.foldl_append
      rw [hturns]
      exact state.past_prefix_turns later

end NetRelocation
