import NetRelocation.Proofs.Ledger
import NetRelocation.Proofs.PathSpelling
import NetRelocation.Relocation.Memory

/-!
# Runs that spell paths in another way

**Theorem (`spelling_does_not_matter`).** Being the same is an equivalence of references; paths are
the same as their spelling says, and no process is a path. When jobs are done one after another over
links in memory, and the namespaces in them are replaced by ones that are the same, the record, all
tables of links, every report on a device and the kind of every error stay as they are. This holds
after each job, since it holds of every beginning of the list.

Two programs are alike (`Program.Alike`) when they take the same steps up to the spelling of
namespaces, for answers that may differ in the wording of errors. What moves the devices must not
look at the spelling (`Relocator.IgnoresSpelling`); then programs that are alike leave the same
world (`Alike.run`). Both loops over devices are alike by induction on the devices.
-/

namespace NetRelocation

open Program

variable {α β σ : Type}

/-! ## Kinds of errors -/

/-- What an error is about, without its wording. -/
inductive ErrorKind where
  | io
  | missing (what : Missing)
  | namespaceFailed
  | rejected
  | addressAssignment
  | enableFailed
  | precondition
  | permissionDenied
  | invalid
  | restartsExhausted
  deriving DecidableEq, Repr

/-- The kind of an error. -/
def Error.kind : Error → ErrorKind
  | io _ => .io
  | notFound what _ => .missing what
  | namespaceFailed _ => .namespaceFailed
  | rejected .. => .rejected
  | addressAssignment .. => .addressAssignment
  | enableFailed .. => .enableFailed
  | precondition _ => .precondition
  | permissionDenied _ => .permissionDenied
  | invalid _ => .invalid
  | restartsExhausted _ => .restartsExhausted

theorem Error.deviceMoved_of_kind {e e' : Error} (h : e.kind = e'.kind) :
    e.deviceMoved = e'.deviceMoved := by
  have hkind (e : Error) : e.deviceMoved =
      decide (e.kind = .addressAssignment ∨ e.kind = .enableFailed) := by
    cases e <;> rfl
  rw [hkind, hkind, h]

/-- A result whose error is told by its kind. -/
def told (result : Except Error α) : Except ErrorKind α := result.mapError Error.kind

theorem told_map (f : α → β) (result : Except Error α) :
    told (result.map f) = (told result).map f := by
  cases result <;> rfl

/-- Two results that are told alike are both the same value, or errors of one kind. -/
theorem told_cases {result result' : Except Error α} (h : told result = told result') :
    (∃ a, result = .ok a ∧ result' = .ok a) ∨
      ∃ e e', result = .error e ∧ result' = .error e' ∧ e.kind = e'.kind := by
  cases result with
  | ok a =>
    cases result' with
    | ok a' => exact .inl ⟨a, rfl, congrArg Except.ok (Except.ok.inj h).symm⟩
    | error e' => cases h
  | error e =>
    cases result' with
    | ok a' => cases h
    | error e' => exact .inr ⟨e, e', rfl, rfl, Except.error.inj h⟩

/-! ## Programs -/

namespace Program

/-- Two programs that take the same steps up to the spelling of namespaces, and end in values that
are related. -/
inductive Alike (R : α → α → Prop) : Program α → Program α → Prop
  | done {a a' : α} (h : R a a') : Alike R (.done a) (.done a')
  | store (action : StoreAction) {next next' : action.Response → Program α}
      (h : ∀ response, Alike R (next response) (next' response)) :
      Alike R (.store action next) (.store action next')
  | attach (device : DeviceName) {target target' : NamespaceRef} (config : LinkConfig)
      (addresses : List Network) (same : target.Same target')
      {next next' : Except Error NetworkDeviceData → Program α}
      (h : ∀ result result', told result = told result' → Alike R (next result) (next' result')) :
      Alike R (.relocate (.attach device target config addresses) next)
        (.relocate (.attach device target' config addresses) next')
  | detach {source source' : NamespaceRef} (device : DeviceName) (restore : Option DeviceName)
      (same : source.Same source') {next next' : Except Error Unit → Program α}
      (h : ∀ result result', told result = told result' → Alike R (next result) (next' result')) :
      Alike R (.relocate (.detach source device restore) next)
        (.relocate (.detach source' device restore) next')
  | note (notice notice' : Notice) {next next' : Program α} (h : Alike R next next') :
      Alike R (.note notice next) (.note notice' next')

theorem Alike.bind {R : α → α → Prop} {S : β → β → Prop} {p p' : Program α}
    {f f' : α → Program β} (h : Alike R p p') (hf : ∀ a a', R a a' → Alike S (f a) (f' a')) :
    Alike S (p >>= f) (p' >>= f') := by
  rw [bind_eq, bind_eq]
  induction h with
  | done h => exact hf _ _ h
  | store action _ ih => exact .store action ih
  | attach device config addresses same _ ih => exact .attach device config addresses same ih
  | detach device restore same _ ih => exact .detach device restore same ih
  | note notice notice' _ ih => exact .note notice notice' ih

end Program

/-- What moves the devices does not look at the spelling of a namespace, but for the wording of
errors. -/
structure Relocator.IgnoresSpelling (r : Relocator σ) : Prop where
  attach : ∀ device target target' config addresses s, target.Same target' →
    told (r.attach device target config addresses s).result =
        told (r.attach device target' config addresses s).result ∧
      (r.attach device target config addresses s).state =
        (r.attach device target' config addresses s).state
  detach : ∀ source source' device restore s, source.Same source' →
    told (r.detach source device restore s).result =
        told (r.detach source' device restore s).result ∧
      (r.detach source device restore s).state = (r.detach source' device restore s).state

/-- Programs that are alike leave the same world. -/
theorem Program.Alike.run {R : α → α → Prop} {r : Relocator σ} (hr : r.IgnoresSpelling)
    {p p' : Program α} (h : Alike R p p') (world : World σ) :
    R (p.run r world).value (p'.run r world).value ∧
      (p.run r world).world = (p'.run r world).world := by
  induction h generalizing world with
  | done h => exact ⟨h, rfl⟩
  | store action _ ih => exact ih _ _
  | @attach device target target' config addresses same next next' _ ih =>
    obtain ⟨htold, hstate⟩ := hr.attach device target target' config addresses world.relocator same
    have hnext := ih _ _ htold { world with
      relocator := (r.attach device target config addresses world.relocator).state }
    simp only [Program.run, Relocator.answer, Outcome.value_after, Outcome.world_after]
    rw [← hstate]
    exact hnext
  | @detach source source' device restore same next next' _ ih =>
    obtain ⟨htold, hstate⟩ := hr.detach source source' device restore world.relocator same
    have hnext := ih _ _ htold { world with
      relocator := (r.detach source device restore world.relocator).state }
    simp only [Program.run, Relocator.answer, Outcome.value_after, Outcome.world_after]
    rw [← hstate]
    exact hnext
  | note notice notice' _ ih => exact ih world

/-! ## Links in memory -/

namespace Memory

theorem ignoresSpelling : relocator.IgnoresSpelling where
  attach device target target' config addresses m same := by
    have hkey : target.key = target'.key := same
    simp only [relocator, silent, attach, hkey]
    split
    · exact ⟨rfl, rfl⟩
    · exact ⟨rfl, rfl⟩
    · split
      · exact ⟨rfl, rfl⟩
      · split
        · exact ⟨rfl, rfl⟩
        · split
          · exact ⟨rfl, rfl⟩
          · exact ⟨rfl, rfl⟩
  detach source source' device restore m same := by
    have hkey : source.key = source'.key := same
    simp only [relocator, silent, detach, hkey]
    split
    · exact ⟨rfl, rfl⟩
    · split
      · exact ⟨rfl, rfl⟩
      · split
        · exact ⟨rfl, rfl⟩
        · split
          · exact ⟨rfl, rfl⟩
          · exact ⟨rfl, rfl⟩

end Memory

/-! ## Jobs -/

/-- An outcome whose error is told by its kind. -/
def DetachOutcome.seen (outcome : DetachOutcome) : DeviceName × Except ErrorKind Unit :=
  (outcome.device, told outcome.result)

namespace Lifecycle

variable {w : WorkloadId} {ns ns' : NamespaceRef}

theorem alike_attachAll (same : ns.Same ns') (attached : SortedSet DeviceName)
    (devices : List PreparedDevice) :
    Alike (told · = told ·) (attachAll w ns attached devices)
      (attachAll w ns' attached devices) := by
  induction devices with
  | nil => exact .done rfl
  | cons device devices ih =>
    unfold attachAll
    split
    · exact ih
    · refine .note _ _ (.attach _ _ _ same fun result result' h => ?_)
      obtain ⟨data, rfl, rfl⟩ | ⟨e, e', rfl, rfl, hkind⟩ := told_cases h
      · refine .store _ fun _ => ih.bind fun rest rest' hrest => .done ?_
        rw [told_map, told_map, hrest]
      · have herror : told (.error e : Except Error (List NetworkDeviceData)) = told (.error e') :=
          congrArg Except.error hkind
        dsimp only
        rw [Error.deviceMoved_of_kind hkind]
        refine .note _ _ ?_
        split
        · exact .store _ fun _ => .done herror
        · exact .done herror

theorem alike_networkReady {place place' : Option NamespaceRef}
    (same : Option.Rel NamespaceRef.Same place place') :
    Alike (told · = told ·) (networkReady w place) (networkReady w place') := by
  cases same with
  | none => exact .done rfl
  | some same =>
    refine .store _ fun entry => ?_
    cases entry with
    | none => exact .done rfl
    | some entry =>
      dsimp only
      cases entry.prepared with
      | none => exact .done rfl
      | some artifact => exact alike_attachAll same _ _

/-- Outcomes of devices that are taken back, told by the kinds of their errors. -/
def SameOutcomes (outcomes outcomes' : List DetachOutcome) : Prop :=
  outcomes.map DetachOutcome.seen = outcomes'.map DetachOutcome.seen

theorem alike_detachAll (same : ns.Same ns') (attached : SortedSet DeviceName)
    (devices : List PreparedDevice) :
    Alike SameOutcomes (detachAll w ns attached devices) (detachAll w ns' attached devices) := by
  induction devices with
  | nil => exact .done rfl
  | cons device devices ih =>
    unfold detachAll
    split
    · refine .note _ _ (.detach _ _ same fun result result' h => ?_)
      have hreturned : (DetachOutcome.mk device.hostName result).returned =
          (DetachOutcome.mk device.hostName result').returned := by
        obtain ⟨_, rfl, rfl⟩ | ⟨e, e', rfl, rfl, hkind⟩ := told_cases h
        · rfl
        · exact Error.deviceMoved_of_kind hkind
      have hrest : Alike SameOutcomes
          (do
            let outcomes ← detachAll w ns attached devices
            return ⟨device.hostName, result⟩ :: outcomes)
          (do
            let outcomes ← detachAll w ns' attached devices
            return ⟨device.hostName, result'⟩ :: outcomes) := by
        refine ih.bind fun outcomes outcomes' houtcomes => .done ?_
        simp only [SameOutcomes, DetachOutcome.seen, List.map_cons, h]
        exact congrArg _ houtcomes
      dsimp only
      rw [hreturned]
      obtain ⟨_, rfl, rfl⟩ | ⟨e, e', rfl, rfl, -⟩ := told_cases h
      · split
        · exact .store _ fun _ => hrest
        · exact hrest
      · split
        · exact .store _ fun _ => .note _ _ hrest
        · exact .note _ _ hrest
    · exact ih

theorem alike_stopping {place place' : Option NamespaceRef}
    (same : Option.Rel NamespaceRef.Same place place') :
    Alike (fun report report' => SameOutcomes report.outcomes report'.outcomes)
      (stopping w place) (stopping w place') := by
  refine .store _ fun entry => ?_
  cases entry with
  | none => exact .done rfl
  | some entry =>
    dsimp only
    cases entry.prepared with
    | none => exact .done rfl
    | some artifact =>
      cases same with
      | none => exact .note _ _ (.done rfl)
      | some same =>
        exact (alike_detachAll same _ _).bind fun _ _ houtcomes =>
          .store _ fun _ => .done houtcomes

/-! ## One job after another -/

/-- Two jobs that differ at most in the spelling of a namespace. -/
inductive Job.Same : Job → Job → Prop
  | prepare (w : WorkloadId) (devices : List AllocatedDevice) :
      Same (.prepare w devices) (.prepare w devices)
  | unprepare (w : WorkloadId) : Same (.unprepare w) (.unprepare w)
  | networkReady (w : WorkloadId) {ns ns' : Option NamespaceRef}
      (same : Option.Rel NamespaceRef.Same ns ns') : Same (.networkReady w ns) (.networkReady w ns')
  | stopping (w : WorkloadId) {ns ns' : Option NamespaceRef}
      (same : Option.Rel NamespaceRef.Same ns ns') : Same (.stopping w ns) (.stopping w ns')
  | removed (w : WorkloadId) : Same (.removed w) (.removed w)

/-- What a job replies, with errors told by their kinds. -/
inductive Seen where
  | prepared (result : Except ErrorKind PreparedArtifact)
  | attached (result : Except ErrorKind (List NetworkDeviceData))
  | detached (outcomes : List (DeviceName × Except ErrorKind Unit))
  | nothing

/-- What is seen of a reply. -/
def Job.seen : (job : Job) → job.Reply → Seen
  | .prepare .., result => .prepared (told result)
  | .unprepare _, _ => .nothing
  | .networkReady .., result => .attached (told result)
  | .stopping .., report => .detached (report.outcomes.map DetachOutcome.seen)
  | .removed _, _ => .nothing

/-- What is seen of a job that was done. -/
def Performed.seen (p : Performed) : Seen := p.job.seen p.reply

/-- A job does the same for another spelling. -/
theorem Job.Same.perform {job job' : Job} (h : job.Same job') {r : Relocator σ}
    (hr : r.IgnoresSpelling) (world : World σ) :
    (job.perform r world).1.seen = (job'.perform r world).1.seen ∧
      (job.perform r world).2 = (job'.perform r world).2 := by
  cases h with
  | prepare w devices => exact ⟨rfl, rfl⟩
  | unprepare w => exact ⟨rfl, rfl⟩
  | networkReady w same =>
    obtain ⟨htold, hworld⟩ := (alike_networkReady same).run hr world
    exact ⟨congrArg Seen.attached htold, hworld⟩
  | stopping w same =>
    obtain ⟨houtcomes, hworld⟩ := (alike_stopping same).run hr world
    exact ⟨congrArg Seen.detached houtcomes, hworld⟩
  | removed w => exact ⟨rfl, rfl⟩

/-- Jobs in a row do the same for other spellings. -/
theorem performAll_same {jobs jobs' : List Job} (h : List.Forall₂ Job.Same jobs jobs')
    {r : Relocator σ} (hr : r.IgnoresSpelling) (world : World σ) :
    (performAll r jobs world).1.map Performed.seen =
        (performAll r jobs' world).1.map Performed.seen ∧
      (performAll r jobs world).2 = (performAll r jobs' world).2 := by
  induction h generalizing world with
  | nil => exact ⟨rfl, rfl⟩
  | cons hjob _ ih =>
    obtain ⟨hseen, hworld⟩ := hjob.perform hr world
    obtain ⟨hrest, hend⟩ := ih (Job.perform r _ world).2
    simp only [performAll, List.map_cons, hseen, ← hworld]
    exact ⟨congrArg _ hrest, hend⟩

end Lifecycle

open Lifecycle

/-- **Spelling of namespaces.** To be the same is an equivalence, which is said of paths by their
spelling and never of a process and a path; and it is all that jobs look at in a namespace, as long
as links are moved in memory. -/
theorem spelling_does_not_matter :
    Equivalence NamespaceRef.Same ∧
    (∀ s t, (NamespaceRef.path s).Same (.path t) ↔ Relation.EqvGen Respelling s t) ∧
    (∀ s, (NamespaceRef.path ("./" ++ s)).Same (.path s) ↔ s = "." ∨ ∃ t, s = "./" ++ t) ∧
    (∀ a b p, PathKey.Named p → '/' ∉ p.toList →
      ¬ (NamespaceRef.path (a ++ "/" ++ p ++ "/../" ++ b)).Same (.path (a ++ "/" ++ b))) ∧
    (∀ number s, ¬ (NamespaceRef.process number).Same (.path s)) ∧
    (∀ m n, (NamespaceRef.process m).Same (.process n) ↔ m = n) ∧
    ∀ jobs jobs', List.Forall₂ Job.Same jobs jobs' → ∀ world : World Memory,
      (performAll Memory.relocator jobs world).1.map Performed.seen =
          (performAll Memory.relocator jobs' world).1.map Performed.seen ∧
        (performAll Memory.relocator jobs world).2 = (performAll Memory.relocator jobs' world).2 := by
  refine ⟨NamespaceRef.same_equivalence, fun _ _ => NamespaceRef.same_path_iff,
    NamespaceRef.leading_dot_iff, fun a b _ => NamespaceRef.two_dots_count a b,
    NamespaceRef.not_same_process_path, fun m n => ⟨?_, ?_⟩, fun _ _ hjobs => ?_⟩
  · exact fun h => NamespaceKey.process.inj h
  · exact fun h => congrArg NamespaceKey.process h
  · exact performAll_same hjobs Memory.ignoresSpelling

def spelledWorkload : WorkloadId := ⟨"w1", by decide, by decide, by decide⟩

/-- Its jobs, with the spellings of its namespace at the start and at the end. -/
def spelledJobs (device : DeviceName) (atStart atEnd : String) : List Job :=
  [.prepare spelledWorkload [.plain device "node" "net"],
    .networkReady spelledWorkload (some (.path atStart)),
    .stopping spelledWorkload (some (.path atEnd))]

/-- A host with the device, and the namespace. -/
def spelledWorld : World Memory :=
  ⟨.empty, (Memory.empty.addHostDevice "eth0").addNamespace (.path "/run/netns/w1")⟩

/-- A device that is moved in and out under other spellings is back on the host. -/
theorem respelled_device_comes_back :
    let eth0 : DeviceName := ⟨"eth0", by decide, by decide, by decide, by decide⟩
    let respelled := spelledJobs eth0 "/run//netns/w1" "/run/netns/./w1/"
    let plain := spelledJobs eth0 "/run/netns/w1" "/run/netns/w1"
    (performAll Memory.relocator respelled spelledWorld).2 =
      (performAll Memory.relocator plain spelledWorld).2 ∧
    ((performAll Memory.relocator respelled spelledWorld).2.relocator.host.get? "eth0").isSome ∧
    ¬ (NamespaceRef.path "/run/netns/x/../w1").Same (.path "/run/netns/w1") := by
  intro eth0 respelled plain
  obtain ⟨-, -, -, hup, -, -, hruns⟩ := spelling_does_not_matter
  have hjobs : List.Forall₂ Job.Same respelled plain :=
    .cons (.prepare _ _) <| .cons (.networkReady _ (.some (by decide))) <|
      .cons (.stopping _ (.some (by decide))) .nil
  have hworld := (hruns _ _ hjobs spelledWorld).2
  refine ⟨hworld, ?_, hup "/run/netns" "w1" "x" (by decide) (by decide)⟩
  rw [hworld]
  simp only [plain, eth0]
  rfl

end NetRelocation
