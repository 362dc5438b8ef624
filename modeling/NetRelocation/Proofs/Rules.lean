import NetRelocation.Proofs.Bookkeeping
import NetRelocation.Proofs.Turns

/-!
# What programs may do to the record

A *rule* says which operations on the record are allowed, in view of the answers to the operations
before. Whether a program obeys it is a question about the program alone (`Program.Obeys`), and a
task that obeys it keeps to it at each of its turns, whatever others do to the record in between
(`Shared.allows_of_past`). In the same way a task that owes an operation (`Program.Owes`) has done it
by the time it is done (`Shared.mem_past_of_owes`).

The second half says what each operation of the coordinator asks of a rule, and what it owes.
-/

namespace NetRelocation

variable {α β σ ι κ : Type}

/-- Which operations on the record are allowed, in view of what was answered before. -/
structure Rule (κ : Type) where
  allows : κ → StoreAction → Prop
  after : κ → (action : StoreAction) → action.Response → κ

namespace Rule

/-- What is in view after an act. -/
def afterAct (rule : Rule κ) (k : κ) : Act → κ
  | .stored action response => rule.after k action response
  | .called _ => k
  | .noted _ => k

/-- What is in view after some acts. -/
def afterActs (rule : Rule κ) (k : κ) (acts : List Act) : κ := acts.foldl rule.afterAct k

/-- An operation is allowed and shows nothing new. -/
def Passes (rule : Rule κ) (k : κ) (action : StoreAction) : Prop :=
  rule.allows k action ∧ ∀ response, rule.after k action response = k

end Rule

namespace Program

/-- Whatever is answered, a program does only what a rule allows. -/
def Obeys (rule : Rule κ) : Program α → κ → Prop
  | done _, _ => True
  | store action next, k =>
    rule.allows k action ∧ ∀ response, (next response).Obeys rule (rule.after k action response)
  | relocate _ next, k => ∀ response, (next response).Obeys rule k
  | note _ next, k => next.Obeys rule k

/-- Whatever is answered, a program does an operation before it is done. -/
def Owes (action : StoreAction) : Program α → Prop
  | done _ => False
  | store action' next => action' = action ∨ ∀ response, (next response).Owes action
  | relocate _ next => ∀ response, (next response).Owes action
  | note _ next => next.Owes action

variable {rule : Rule κ} {action : StoreAction} {p : Program α} {f : α → Program β}

/-! ## One program after another -/

theorem Obeys.bind {k : κ} (hp : p.Obeys rule k) (hf : ∀ a k, (f a).Obeys rule k) :
    (p >>= f).Obeys rule k := by
  rw [bind_eq]
  induction p generalizing k with
  | done a => exact hf a k
  | store action next ih => exact ⟨hp.1, fun response => ih response (hp.2 response)⟩
  | relocate request next ih => exact fun response => ih response (hp response)
  | note notice next ih => exact ih hp

theorem Owes.bind_left (hp : p.Owes action) : (p >>= f).Owes action := by
  rw [bind_eq]
  induction p with
  | done a => exact hp.elim
  | store action next ih => exact hp.imp_right fun hp response => ih response (hp response)
  | relocate request next ih => exact fun response => ih response (hp response)
  | note notice next ih => exact ih hp

theorem Owes.bind_right (hf : ∀ a, (f a).Owes action) : (p >>= f).Owes action := by
  rw [bind_eq]
  induction p with
  | done a => exact hf a
  | store action next ih => exact .inr ih
  | relocate request next ih => exact ih
  | note notice next ih => exact ih

@[simp] theorem obeys_ofNotices (l : List Notice) (k : κ) : (ofNotices l).Obeys rule k := by
  induction l with
  | nil => trivial
  | cons notice l ih => exact ih

/-! ## One step -/

variable {r : Relocator σ} {world : World σ} {s : Stepped α σ} {k : κ}

theorem Obeys.step (h : p.Obeys rule k) (hs : p.step r world = some s) :
    (∀ action response, s.act = .stored action response → rule.allows k action) ∧
      s.rest.Obeys rule (rule.afterAct k s.act) := by
  cases p with
  | done a => cases hs
  | store action next =>
    cases hs
    refine ⟨fun _ _ hact => ?_, h.2 _⟩
    cases hact
    exact h.1
  | relocate request next =>
    cases hs
    exact ⟨nofun, h _⟩
  | note notice next =>
    cases hs
    exact ⟨nofun, h⟩

theorem Owes.step (h : p.Owes action) (hs : p.step r world = some s) :
    (∃ response, s.act = .stored action response) ∨ s.rest.Owes action := by
  cases p with
  | done a => cases hs
  | store action' next =>
    cases hs
    rcases h with rfl | h
    · exact .inl ⟨_, rfl⟩
    · exact .inr (h _)
  | relocate request next =>
    cases hs
    exact .inr (h _)
  | note notice next =>
    cases hs
    exact .inr h

end Program

/-! ## Every turn -/

/-- What one task did, in order. -/
def actsOf [DecidableEq ι] (i : ι) (past : List (ι × Act)) : List Act :=
  (past.filter (·.1 = i)).map (·.2)

namespace Shared

variable [DecidableEq ι] {r : Relocator σ} (tasks : ι → Program Unit) {world : World σ}
  {rule : Rule κ} {k : κ} (i : ι)

theorem obeys_turns (h : (tasks i).Obeys rule k) (schedule : List ι) :
    (((start tasks world).turns r schedule).tasks i).Obeys rule
      (rule.afterActs k (actsOf i ((start tasks world).turns r schedule).past)) := by
  refine turns_induction (P := fun state =>
    (state.tasks i).Obeys rule (rule.afterActs k (actsOf i state.past))) h
    (fun state j s h hs => ?_) schedule
  simp only [take, actsOf, List.filter_append, List.map_append]
  by_cases hj : j = i
  · subst hj
    rw [Function.update_self]
    simpa [Rule.afterActs, actsOf] using (h.step hs).2
  · rw [Function.update_of_ne fun e => hj e.symm]
    simpa [hj, actsOf] using h

/-- **A task keeps to its rule at each of its turns.** -/
theorem allows_of_past {schedule : List ι} {before after : List (ι × Act)} {action : StoreAction}
    {response : action.Response} (h : (tasks i).Obeys rule k)
    (hpast : ((start tasks world).turns r schedule).past =
      before ++ (i, .stored action response) :: after) :
    rule.allows (rule.afterActs k (actsOf i before)) action := by
  obtain ⟨earlier, s, rfl, hs, hact⟩ := exists_turns_of_past hpast
  exact ((obeys_turns tasks i h earlier).step hs).1 action response hact

/-- **A task that is done has done what it owed.** -/
theorem mem_past_of_owes {schedule : List ι} {action : StoreAction} (h : (tasks i).Owes action)
    (hdone : ((start tasks world).turns r schedule).tasks i = .done ()) :
    ∃ response, (i, .stored action response) ∈ ((start tasks world).turns r schedule).past := by
  have hinv : (∃ response, (i, .stored action response) ∈
      ((start tasks world).turns r schedule).past) ∨
      (((start tasks world).turns r schedule).tasks i).Owes action := by
    have hstart : (∃ response, (i, .stored action response) ∈ (start tasks world).past) ∨
        ((start tasks world).tasks i).Owes action := .inr h
    refine turns_induction (P := fun state => (∃ response, (i, .stored action response) ∈ state.past)
      ∨ (state.tasks i).Owes action) hstart (fun state j s h hs => ?_) schedule
    rcases h with ⟨response, hmem⟩ | h
    · exact .inl ⟨response, List.mem_append_left _ hmem⟩
    · by_cases hj : j = i
      · subst hj
        rcases h.step hs with ⟨response, hact⟩ | hrest
        · exact .inl ⟨response, List.mem_append_right _ (by simp [hact])⟩
        · exact .inr (by simpa [take] using hrest)
      · exact .inr (by simpa [take, Function.update_of_ne fun e => hj e.symm] using h)
  exact hinv.resolve_right (by rw [hdone]; exact id)

end Shared

/-! ## The operations of the coordinator -/

namespace Lifecycle

open Program

variable {rule : Rule κ} {k : κ} {w : WorkloadId}

theorem obeys_prepare {devices : List AllocatedDevice}
    (h : ∀ artifact, PreparedArtifact.ofAllocation devices = .ok artifact →
      rule.allows k (.recordPrepared w devices artifact)) :
    (prepare w devices).Obeys rule k := by
  unfold prepare
  cases ha : PreparedArtifact.ofAllocation devices with
  | error e => trivial
  | ok artifact => exact ⟨h artifact ha, fun lost => (obeys_ofNotices _ _).bind fun _ _ => trivial⟩

theorem obeys_prepareBatch {claims : List Claim}
    (h : ∀ claim ∈ claims, ∀ artifact k, PreparedArtifact.ofAllocation claim.devices = .ok artifact →
      rule.allows k (.recordPrepared claim.workload claim.devices artifact)) (k : κ) :
    (prepareBatch claims).Obeys rule k := by
  induction claims generalizing k with
  | nil => trivial
  | cons claim claims ih =>
    refine (obeys_prepare fun artifact => h claim List.mem_cons_self artifact k).bind fun _ k => ?_
    exact (ih (fun c hc => h c (List.mem_cons_of_mem _ hc)) k).bind fun _ _ => trivial

theorem obeys_unprepare (h : rule.allows k (.clearPrepared w)) : (unprepare w).Obeys rule k := by
  refine ⟨h, fun response => ?_⟩
  cases response <;> trivial

theorem obeys_removed (h : rule.allows k (.purge w)) : (removed w).Obeys rule k := by
  refine ⟨h, fun response => ?_⟩
  cases response <;> trivial

theorem obeys_attachAll (ns : NamespaceRef) (attached : SortedSet DeviceName)
    {devices : List PreparedDevice}
    (h : ∀ device ∈ devices, rule.Passes k (.markAttached w device.hostName)) :
    (attachAll w ns attached devices).Obeys rule k := by
  induction devices with
  | nil => trivial
  | cons device devices ih =>
    have hmark := h device List.mem_cons_self
    have hrest := ih fun d hd => h d (List.mem_cons_of_mem _ hd)
    by_cases ha : device.hostName ∈ attached
    · simpa only [attachAll, if_pos ha] using hrest
    · simp only [attachAll, if_neg ha]
      rintro (e | data)
      · cases he : e.deviceMoved
        · simp [Obeys, he]
        · simpa [Obeys, he] using hmark.1
      · refine ⟨hmark.1, fun response => ?_⟩
        rw [hmark.2 response]
        exact hrest.bind fun _ _ => trivial

/-- Noting what came of one device shows nothing new. -/
theorem obeys_noteDetached_bind {outcome : DetachOutcome} {f : Unit → Program β}
    (h : rule.Passes k (.markDetached w outcome.device)) (hf : (f ()).Obeys rule k) :
    (noteDetached w outcome >>= f).Obeys rule k := by
  have hmark : rule.allows k (.markDetached w outcome.device) ∧
      ∀ response, (f ()).Obeys rule (rule.after k (.markDetached w outcome.device) response) :=
    ⟨h.1, fun response => by rwa [h.2 response]⟩
  obtain ⟨device, e | _⟩ := outcome
  · cases he : e.deviceMoved with
    | false =>
      simp only [noteDetached, DetachOutcome.returned, he, Bool.false_eq_true, if_false]
      exact hf
    | true =>
      simp only [noteDetached, DetachOutcome.returned, he, if_true]
      exact hmark
  · exact hmark

theorem obeys_detachAll (ns : NamespaceRef) (attached : SortedSet DeviceName)
    {devices : List PreparedDevice}
    (h : ∀ device ∈ devices, rule.Passes k (.markDetached w device.hostName)) :
    (detachAll w ns attached devices).Obeys rule k := by
  induction devices with
  | nil => trivial
  | cons device devices ih =>
    have hmark := h device List.mem_cons_self
    have hrest := ih fun d hd => h d (List.mem_cons_of_mem _ hd)
    by_cases ha : device.hostName ∈ attached
    · rw [detachAll_cons_of_mem w ns attached ha]
      exact fun result => obeys_noteDetached_bind hmark (hrest.bind fun _ _ => trivial)
    · simpa only [detachAll, if_neg ha] using hrest

theorem obeys_networkReady {ns : Option NamespaceRef} (hread : rule.allows k (.read w))
    (h : ∀ entry artifact, entry.prepared = some artifact → ∀ device ∈ artifact.devices,
      rule.Passes (rule.after k (.read w) (some entry)) (.markAttached w device.hostName)) :
    (networkReady w ns).Obeys rule k := by
  cases ns with
  | none => trivial
  | some ns =>
    refine ⟨hread, ?_⟩
    rintro (_ | entry)
    · trivial
    · dsimp only
      cases hp : entry.prepared with
      | none => trivial
      | some artifact => exact obeys_attachAll ns entry.attached (h entry artifact hp)

theorem obeys_stopping {ns : Option NamespaceRef} (hread : rule.allows k (.read w))
    (h : ∀ entry artifact, entry.prepared = some artifact → ∀ device ∈ artifact.devices,
      rule.Passes (rule.after k (.read w) (some entry)) (.markDetached w device.hostName))
    (hleave : ∀ k, rule.allows k (.markNetworkDetached w)) :
    (stopping w ns).Obeys rule k := by
  refine ⟨hread, ?_⟩
  rintro (_ | entry)
  · trivial
  · dsimp only
    cases hp : entry.prepared with
    | none => trivial
    | some artifact =>
      cases ns with
      | none => trivial
      | some ns =>
        refine (obeys_detachAll ns entry.attached (h entry artifact hp)).bind fun _ k => ?_
        exact ⟨hleave k, fun _ => trivial⟩

/-! ### What is owed -/

theorem owes_prepare {devices : List AllocatedDevice} {artifact : PreparedArtifact}
    (h : PreparedArtifact.ofAllocation devices = .ok artifact) :
    (prepare w devices).Owes (.recordPrepared w devices artifact) := by
  simp only [prepare, h]
  exact .inl rfl

theorem owes_prepareBatch {claims : List Claim} {claim : Claim} {artifact : PreparedArtifact}
    (hmem : claim ∈ claims) (h : PreparedArtifact.ofAllocation claim.devices = .ok artifact) :
    (prepareBatch claims).Owes (.recordPrepared claim.workload claim.devices artifact) := by
  induction claims with
  | nil => cases hmem
  | cons first claims ih =>
    rcases List.mem_cons.1 hmem with rfl | hmem
    · exact (owes_prepare h).bind_left
    · exact Owes.bind_right fun _ => (ih hmem).bind_left

end Lifecycle

end NetRelocation
