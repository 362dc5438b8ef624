import NetRelocation.Proofs.Territory

/-!
# Workloads do not disturb each other

Any number of workloads are served at the same time by one coordinator with one set of tables. Each
has its own jobs, which are done in order; between two steps of one workload come any steps of the
others.

**Theorem (`undisturbed`).** Let the workloads be granted different devices and visit different
namespaces. Then each of them gets done, whatever the others do, and once it is done everything is
for it as if it had been alone: its replies, its record, the links of its namespaces, and the links
of its devices on the host.

Jobs are confined to the territory of their workload (`confined_program`), and territories lie
apart. So at every moment a workload has done what it would have done alone in as many steps, in a
world that is alike in its territory (`Alongside`). A turn keeps this for the workload whose turn it
is because what it does depends on its territory alone, and for all others because nothing changes
there (`Alongside.turn`).
-/

namespace NetRelocation

open Program

variable {α β σ ι : Type}

/-! ## Steps of a program alone -/

namespace Program

variable (r : Relocator σ)

/-- Do so many steps of a program, as far as it has them. -/
def advances : Nat → Program α × World σ → Program α × World σ
  | 0, state => state
  | n + 1, state => advances n (state.1.advance r state.2)

/-- A step leaves what is to come as it is. -/
theorem run_advance (p : Program α) (world : World σ) :
    ((p.advance r world).1.run r (p.advance r world).2).value = (p.run r world).value ∧
      ((p.advance r world).1.run r (p.advance r world).2).world = (p.run r world).world := by
  cases p <;> exact ⟨rfl, rfl⟩

theorem run_advances (n : Nat) (state : Program α × World σ) :
    ((advances r n state).1.run r (advances r n state).2).value = (state.1.run r state.2).value ∧
      ((advances r n state).1.run r (advances r n state).2).world =
        (state.1.run r state.2).world := by
  induction n generalizing state with
  | zero => exact ⟨rfl, rfl⟩
  | succ n ih =>
    obtain ⟨hvalue, hworld⟩ := run_advance r state.1 state.2
    obtain ⟨hvalue', hworld'⟩ := ih (state.1.advance r state.2)
    exact ⟨hvalue'.trans hvalue, hworld'.trans hworld⟩

theorem advances_done (n : Nat) (a : α) (world : World σ) :
    advances r n (done a, world) = (done a, world) := by
  induction n with
  | zero => rfl
  | succ n ih => exact ih

theorem advances_add (m n : Nat) (state : Program α × World σ) :
    advances r (m + n) state = advances r n (advances r m state) := by
  induction m generalizing state with
  | zero => rw [Nat.zero_add, advances]
  | succ m ih => rw [Nat.succ_add, advances, ih, advances]

/-- A program is done after some number of steps. -/
theorem exists_advances_done (p : Program α) (world : World σ) :
    ∃ n a world', advances r n (p, world) = (done a, world') := by
  induction p generalizing world with
  | done a => exact ⟨0, a, world, rfl⟩
  | store action next ih =>
    obtain ⟨n, h⟩ := ih (action.answer world.store) { world with store := action.apply world.store }
    exact ⟨n + 1, h⟩
  | relocate request next ih =>
    obtain ⟨n, h⟩ := ih (r.answer request world.relocator).result
      { world with relocator := (r.answer request world.relocator).state }
    exact ⟨n + 1, h⟩
  | note notice next ih =>
    obtain ⟨n, h⟩ := ih world
    exact ⟨n + 1, h⟩

end Program

/-! ## Turns -/

/-- Programs that share a world and end in values. -/
structure Crew (ι α σ : Type) where
  tasks : ι → Program α
  world : World σ

namespace Crew

variable [DecidableEq ι] (r : Relocator σ)

/-- It is the turn of one program; one that is done lets it pass. -/
def turn (crew : Crew ι α σ) (i : ι) : Crew ι α σ :=
  let next := (crew.tasks i).advance r crew.world
  ⟨Function.update crew.tasks i next.1, next.2⟩

/-- One turn after another. -/
def turns (crew : Crew ι α σ) (schedule : List ι) : Crew ι α σ := schedule.foldl (turn r) crew

end Crew

/-- Each program of a crew is as far as a program alone, in a world that is alike in its
territory. -/
structure Alongside (t : ι → Territory) (crew : Crew ι α Memory)
    (alone : ι → Program α × World Memory) : Prop where
  same : ∀ i, crew.tasks i = (alone i).1
  confined : ∀ i, (crew.tasks i).Confined (t i)
  names : ∀ i, (t i).Names (crew.world.store.read (t i).workload)
  alike : ∀ i, (t i).Alike crew.world (alone i).2

section Turns

variable [DecidableEq ι] {t : ι → Territory} {crew : Crew ι α Memory}
  {alone : ι → Program α × World Memory}

/-- **One turn is one step alone.** -/
theorem Alongside.turn (h : Alongside t crew alone) (hapart : ∀ i j, i ≠ j → (t i).Apart (t j))
    (i : ι) :
    Alongside t (crew.turn Memory.relocator i)
      (Function.update alone i ((alone i).1.advance Memory.relocator (alone i).2)) := by
  obtain ⟨hrest, hconfined, hnames, halike⟩ := (h.confined i).advance (h.names i) (h.alike i)
  -- the others find their territory as it was
  have hothers (j : ι) (hj : j ≠ i) :
      (t j).Alike (crew.turn Memory.relocator i).world crew.world :=
    (h.confined i).advance_apart (hapart j i hj) crew.world
  refine ⟨fun j => ?_, fun j => ?_, fun j => ?_, fun j => ?_⟩ <;> by_cases hj : j = i
  · subst hj
    simpa [Crew.turn, ← h.same j] using hrest
  · simpa [Crew.turn, hj] using h.same j
  · subst hj
    simpa [Crew.turn] using hconfined
  · simpa [Crew.turn, hj] using h.confined j
  · subst hj
    exact hnames
  · rw [(hothers j hj).record]
    exact h.names j
  · subst hj
    simpa [Crew.turn, ← h.same j] using halike
  · rw [Function.update_of_ne hj]
    exact (hothers j hj).trans (h.alike j)

/-- **Turns are steps alone.** A workload is as far as alone after as many steps as it had turns. -/
theorem Alongside.turns (h : Alongside t crew alone) (hapart : ∀ i j, i ≠ j → (t i).Apart (t j))
    (schedule : List ι) :
    Alongside t (crew.turns Memory.relocator schedule)
      fun i => advances Memory.relocator (schedule.count i) (alone i) := by
  induction schedule generalizing crew alone with
  | nil => exact h
  | cons i schedule ih =>
    have hnext := ih (h.turn hapart i)
    have hcount : (fun j => advances Memory.relocator (schedule.count j)
        (Function.update alone i ((alone i).1.advance Memory.relocator (alone i).2) j)) =
        fun j => advances Memory.relocator ((i :: schedule).count j) (alone j) := by
      funext j
      by_cases hj : j = i
      · subst hj
        rw [Function.update_self, List.count_cons_self, advances]
      · rw [Function.update_of_ne hj, List.count_cons_of_ne fun e => hj e.symm]
    rwa [hcount] at hnext

end Turns

/-! ## Jobs -/

namespace Lifecycle

open Program

/-- A job with what it replied. -/
structure Replied where
  job : Job
  reply : job.Reply

/-- The reply of a job that was done. -/
def Performed.replied (p : Performed) : Replied := ⟨p.job, p.reply⟩

/-- Do one job after another and collect the replies. -/
def serve : List Job → Program (List Replied)
  | [] => done []
  | job :: jobs => do
    let reply ← job.program
    let replies ← serve jobs
    return ⟨job, reply⟩ :: replies

theorem run_serve (r : Relocator σ) (jobs : List Job) (world : World σ) :
    ((serve jobs).run r world).value = (performAll r jobs world).1.map Performed.replied ∧
      ((serve jobs).run r world).world = (performAll r jobs world).2 := by
  induction jobs generalizing world with
  | nil => exact ⟨rfl, rfl⟩
  | cons job jobs ih =>
    obtain ⟨hvalue, hworld⟩ := ih (job.program.run r world).world
    simp only [serve, run_bind, Outcome.value_after, Outcome.world_after, pure_eq, run, performAll,
      Job.perform, List.map_cons, hvalue, hworld]
    exact ⟨rfl, trivial⟩

def Job.granted : Job → List DeviceName
  | prepare _ devices => devices.map (·.name)
  | unprepare _ => []
  | networkReady _ _ => []
  | stopping _ _ => []
  | removed _ => []

def Job.visited : Job → List NamespaceRef
  | prepare _ _ => []
  | unprepare _ => []
  | networkReady _ ns => ns.toList
  | stopping _ ns => ns.toList
  | removed _ => []

def granted (jobs : List Job) : List DeviceName := jobs.flatMap Job.granted

def visited (jobs : List Job) : List NamespaceRef := jobs.flatMap Job.visited

/-- What a workload with some jobs may change. -/
def territory (jobs : WorkloadId → List Job) (w : WorkloadId) : Territory where
  workload := w
  names := {d | d ∈ granted (jobs w)}
  keys := {key | ∃ ns ∈ visited (jobs w), ns.key = key}

/-! ## Jobs stay in their territory -/

variable {t : Territory}

theorem confined_prepare {devices : List AllocatedDevice}
    (hnames : ∀ d ∈ devices, d.name ∈ t.names) :
    (prepare t.workload devices).Confined t := by
  unfold prepare
  cases ha : PreparedArtifact.ofAllocation devices with
  | error e => trivial
  | ok artifact =>
    refine ⟨⟨rfl, ?_⟩, fun lost _ => (confined_ofNotices _).bind fun _ => trivial⟩
    rintro _ _ _ ⟨⟩ device hdevice
    -- the devices of an artifact are those of the grant
    have hname : device.hostName ∈ artifact.hostNames := List.mem_map_of_mem hdevice
    rw [hostNames_ofAllocation ha] at hname
    obtain ⟨d, hd, he⟩ := List.mem_map.1 hname
    exact he ▸ hnames d hd

theorem confined_unprepare : (unprepare t.workload).Confined t := by
  refine ⟨⟨rfl, nofun⟩, fun response _ => ?_⟩
  cases response <;> trivial

theorem confined_removed : (removed t.workload).Confined t := by
  refine ⟨⟨rfl, nofun⟩, fun response _ => ?_⟩
  cases response <;> trivial

theorem confined_attachAll {ns : NamespaceRef} (hns : ns.key ∈ t.keys)
    (attached : SortedSet DeviceName) {devices : List PreparedDevice}
    (hnames : ∀ device ∈ devices, device.hostName ∈ t.names) :
    (attachAll t.workload ns attached devices).Confined t := by
  have hmark (d : DeviceName) : t.Owns (.markAttached t.workload d) := ⟨rfl, by rintro _ _ _ ⟨⟩⟩
  induction devices with
  | nil => trivial
  | cons device devices ih =>
    have hrest := ih fun d hd => hnames d (List.mem_cons_of_mem _ hd)
    by_cases ha : device.hostName ∈ attached
    · simpa only [attachAll, if_pos ha] using hrest
    · simp only [attachAll, if_neg ha]
      refine ⟨⟨hnames device List.mem_cons_self, hns⟩, ?_⟩
      rintro (e | data)
      · cases he : e.deviceMoved
        · simp [Confined, he]
        · simpa [Confined, he] using hmark device.hostName
      · exact ⟨hmark device.hostName, fun _ _ => hrest.bind fun _ => trivial⟩

theorem confined_noteDetached (outcome : DetachOutcome) :
    (noteDetached t.workload outcome).Confined t := by
  have hmark : t.Owns (.markDetached t.workload outcome.device) := ⟨rfl, nofun⟩
  obtain ⟨device, e | _⟩ := outcome
  · cases he : e.deviceMoved with
    | false => simp [noteDetached, DetachOutcome.returned, he, ofNotice, Confined]
    | true =>
      simp only [noteDetached, DetachOutcome.returned, he, if_true]
      exact ⟨hmark, fun _ _ => trivial⟩
  · exact ⟨hmark, fun _ _ => trivial⟩

theorem confined_detachAll {ns : NamespaceRef} (hns : ns.key ∈ t.keys)
    (attached : SortedSet DeviceName) {devices : List PreparedDevice}
    (hnames : ∀ device ∈ devices, device.hostName ∈ t.names) :
    (detachAll t.workload ns attached devices).Confined t := by
  induction devices with
  | nil => trivial
  | cons device devices ih =>
    have hrest := ih fun d hd => hnames d (List.mem_cons_of_mem _ hd)
    by_cases ha : device.hostName ∈ attached
    · rw [detachAll_cons_of_mem t.workload ns attached ha]
      exact ⟨⟨hns, device.hostName, hnames device List.mem_cons_self, rfl⟩, fun result =>
        (confined_noteDetached _).bind fun _ => hrest.bind fun _ => trivial⟩
    · simpa only [detachAll, if_neg ha] using hrest

theorem confined_networkReady {ns : Option NamespaceRef} (hns : ∀ place ∈ ns, place.key ∈ t.keys) :
    (networkReady t.workload ns).Confined t := by
  cases ns with
  | none => trivial
  | some place =>
    refine ⟨⟨rfl, nofun⟩, ?_⟩
    rintro (_ | entry) hshown
    · trivial
    · dsimp only
      cases hp : entry.prepared with
      | none => trivial
      | some artifact =>
        exact confined_attachAll (hns place rfl) entry.attached (hshown entry artifact rfl hp)

theorem confined_stopping {ns : Option NamespaceRef} (hns : ∀ place ∈ ns, place.key ∈ t.keys) :
    (stopping t.workload ns).Confined t := by
  refine ⟨⟨rfl, nofun⟩, ?_⟩
  rintro (_ | entry) hshown
  · trivial
  · dsimp only
    cases hp : entry.prepared with
    | none => trivial
    | some artifact =>
      cases ns with
      | none => trivial
      | some place =>
        refine (confined_detachAll (hns place rfl) entry.attached
          (hshown entry artifact rfl hp)).bind fun _ => ?_
        exact ⟨⟨rfl, nofun⟩, fun _ _ => trivial⟩

/-- **A job stays in the territory of its workload.** -/
theorem confined_program {job : Job} (hw : job.workload = t.workload)
    (hnames : ∀ d ∈ job.granted, d ∈ t.names) (hkeys : ∀ ns ∈ job.visited, ns.key ∈ t.keys) :
    job.program.Confined t := by
  cases job with
  | prepare w devices =>
    cases hw
    exact confined_prepare fun d hd => hnames d.name (List.mem_map_of_mem hd)
  | unprepare w =>
    cases hw
    exact confined_unprepare
  | networkReady w ns =>
    cases hw
    exact confined_networkReady fun place hplace => hkeys place (Option.mem_toList.2 hplace)
  | stopping w ns =>
    cases hw
    exact confined_stopping fun place hplace => hkeys place (Option.mem_toList.2 hplace)
  | removed w =>
    cases hw
    exact confined_removed

theorem confined_serve {jobs : List Job} (h : ∀ job ∈ jobs, job.program.Confined t) :
    (serve jobs).Confined t := by
  induction jobs with
  | nil => trivial
  | cons job jobs ih =>
    refine (h job List.mem_cons_self).bind fun reply => ?_
    exact (ih fun job' hjob => h job' (List.mem_cons_of_mem _ hjob)).bind fun _ => trivial

/-! ## Every interleaving -/

/-- Workloads that are served at the same time, from an empty record. -/
def serving (jobs : WorkloadId → List Job) (m : Memory) : Crew WorkloadId (List Replied) Memory :=
  ⟨fun w => serve (jobs w), ⟨.empty, m⟩⟩

section Serving

variable (m : Memory) {jobs : WorkloadId → List Job}

theorem alongside_serving (hown : ∀ w, ∀ job ∈ jobs w, job.workload = w) :
    Alongside (territory jobs) (serving jobs m) fun w => (serve (jobs w), ⟨.empty, m⟩) where
  same _ := rfl
  confined w := by
    refine confined_serve fun job hjob => confined_program (hown w job hjob) ?_ ?_
    · exact fun d hd => List.mem_flatMap.2 ⟨job, hjob, hd⟩
    · exact fun ns hns => ⟨ns, List.mem_flatMap.2 ⟨job, hjob, hns⟩, rfl⟩
  names _ := nofun
  alike _ := .refl _

theorem apart_territory
    (hdevices : ∀ v w, v ≠ w → ∀ d ∈ granted (jobs v), d ∉ granted (jobs w))
    (hspaces : ∀ v w, v ≠ w → ∀ a ∈ visited (jobs v), ∀ b ∈ visited (jobs w), ¬ a.Same b)
    (v w : WorkloadId) (h : v ≠ w) : (territory jobs v).Apart (territory jobs w) where
  workload := h
  names := hdevices v w h
  keys := by
    rintro _ ⟨a, ha, rfl⟩ ⟨b, hb, hkey⟩
    exact hspaces v w h a ha b hb hkey.symm

/-- **Workloads do not disturb each other.** Let the jobs of different workloads grant different
devices and visit different namespaces. Whatever the schedule, a workload is done once it had enough
turns; and when it is done, its replies, its record, the links of its namespaces and the links of its
devices on the host are those of its jobs done alone. -/
theorem undisturbed (m : Memory) (jobs : WorkloadId → List Job)
    (hown : ∀ w, ∀ job ∈ jobs w, job.workload = w)
    (hdevices : ∀ v w, v ≠ w → ∀ d ∈ granted (jobs v), d ∉ granted (jobs w))
    (hspaces : ∀ v w, v ≠ w → ∀ a ∈ visited (jobs v), ∀ b ∈ visited (jobs w), ¬ a.Same b)
    (w : WorkloadId) :
    let alone := performAll Memory.relocator (jobs w) ⟨.empty, m⟩
    let crew := (serving jobs m).turns Memory.relocator
    (∃ n, ∀ schedule, n ≤ schedule.count w → ∃ replies, (crew schedule).tasks w = .done replies) ∧
    ∀ schedule replies, (crew schedule).tasks w = .done replies →
      replies = alone.1.map Performed.replied ∧
      (crew schedule).world.store.read w = alone.2.store.read w ∧
      (∀ ns ∈ visited (jobs w), (crew schedule).world.relocator.namespaces.get? ns.key =
        alone.2.relocator.namespaces.get? ns.key) ∧
      ∀ d ∈ granted (jobs w), (crew schedule).world.relocator.host.get? d.text =
        alone.2.relocator.host.get? d.text := by
  intro alone crew
  have halongside (schedule : List WorkloadId) :=
    (alongside_serving m hown).turns (apart_territory hdevices hspaces) schedule
  constructor
  · obtain ⟨n, replies, world, hdone⟩ :=
      exists_advances_done Memory.relocator (serve (jobs w)) ⟨.empty, m⟩
    refine ⟨n, fun schedule hn => ⟨replies, ?_⟩⟩
    refine ((halongside schedule).same w).trans ?_
    obtain ⟨k, hk⟩ := Nat.exists_eq_add_of_le hn
    simp only [hk, advances_add, hdone, advances_done]
  · intro schedule replies hdone
    have halike := (halongside schedule).alike w
    -- the lone program is done as well, and its run is over
    obtain ⟨hvalue, hworld⟩ := run_advances Memory.relocator (schedule.count w)
      (serve (jobs w), ⟨.empty, m⟩)
    rw [← (halongside schedule).same w, hdone] at hvalue hworld
    obtain ⟨hreplies, hfinal⟩ := run_serve Memory.relocator (jobs w) ⟨.empty, m⟩
    rw [show (advances Memory.relocator (schedule.count w) (serve (jobs w), ⟨.empty, m⟩)).2 =
      alone.2 from hworld.trans hfinal] at halike
    exact ⟨hvalue.trans hreplies, halike.record,
      fun ns hns => halike.tables.inside _ ⟨ns, hns, rfl⟩, fun d hd => halike.tables.host d hd⟩

end Serving

/-- Two workloads whose devices have the same name `net0`, each in its own namespace. In neither can
`net0` be taken out. However they take turns, the first is done in the end, and its record is the
one that it has when it is alone. -/
theorem undisturbed_by_namesake :
    ∃ (w1 w2 : WorkloadId) (eth0 eth1 : DeviceName) (jobs : WorkloadId → List Job),
      let m := (((Memory.empty.addHostDevice "eth0").addHostDevice "eth1").addNamespace
        (.path "ns/w1")).addNamespace (.path "ns/w2") |>.fail .detach "net0"
      let named (device : DeviceName) : List AllocatedDevice :=
        [(AllocatedDevice.plain device "" "").withAttribute Attribute.interfaceName "net0"]
      w1 ≠ w2 ∧
      jobs w1 = [.prepare w1 (named eth0), .networkReady w1 (some (.path "ns/w1")),
        .stopping w1 (some (.path "ns/w1"))] ∧
      jobs w2 = [.prepare w2 (named eth1), .networkReady w2 (some (.path "ns/w2")),
        .stopping w2 (some (.path "ns/w2"))] ∧
      ∃ n, ∀ schedule, n ≤ schedule.count w1 →
        ((serving jobs m).turns Memory.relocator schedule).world.store.read w1 =
          (performAll Memory.relocator (jobs w1) ⟨.empty, m⟩).2.store.read w1 := by
  let w1 : WorkloadId := ⟨"w1", by decide, by decide, by decide⟩
  let w2 : WorkloadId := ⟨"w2", by decide, by decide, by decide⟩
  let eth0 : DeviceName := ⟨"eth0", by decide, by decide, by decide, by decide⟩
  let eth1 : DeviceName := ⟨"eth1", by decide, by decide, by decide, by decide⟩
  let tour (w : WorkloadId) (device : DeviceName) (ns : NamespaceRef) : List Job :=
    [.prepare w [(AllocatedDevice.plain device "" "").withAttribute Attribute.interfaceName "net0"],
      .networkReady w (some ns), .stopping w (some ns)]
  let jobs (w : WorkloadId) : List Job :=
    if w = w1 then tour w1 eth0 (.path "ns/w1") else if w = w2 then tour w2 eth1 (.path "ns/w2")
    else []
  have hown (w : WorkloadId) (job : Job) (hjob : job ∈ jobs w) : job.workload = w := by
    by_cases h1 : w = w1
    · simp only [jobs, if_pos h1, tour, List.mem_cons, List.not_mem_nil, or_false] at hjob
      rcases hjob with rfl | rfl | rfl <;> exact h1.symm
    · by_cases h2 : w = w2
      · simp only [jobs, if_neg h1, if_pos h2, tour, List.mem_cons, List.not_mem_nil,
          or_false] at hjob
        rcases hjob with rfl | rfl | rfl <;> exact h2.symm
      · simp only [jobs, if_neg h1, if_neg h2, List.not_mem_nil] at hjob
  have hgranted (w : WorkloadId) :
      granted (jobs w) = if w = w1 then [eth0] else if w = w2 then [eth1] else [] := by
    simp only [jobs]
    split_ifs <;> rfl
  have hvisited (w : WorkloadId) : visited (jobs w) =
      if w = w1 then [.path "ns/w1", .path "ns/w1"]
      else if w = w2 then [.path "ns/w2", .path "ns/w2"] else [] := by
    simp only [jobs]
    split_ifs <;> rfl
  have hdevices (v w : WorkloadId) (h : v ≠ w) (d) (hd : d ∈ granted (jobs v)) :
      d ∉ granted (jobs w) := by
    have hne : eth0 ≠ eth1 := by decide
    have hne' : eth1 ≠ eth0 := by decide
    rw [hgranted] at hd ⊢
    split_ifs at hd ⊢ <;> simp_all
  have hspaces (v w : WorkloadId) (h : v ≠ w) (a) (ha : a ∈ visited (jobs v)) (b)
      (hb : b ∈ visited (jobs w)) : ¬ a.Same b := by
    have hne : ¬ (NamespaceRef.path "ns/w1").Same (.path "ns/w2") := by decide
    have hne' : ¬ (NamespaceRef.path "ns/w2").Same (.path "ns/w1") := by decide
    rw [hvisited] at ha hb
    split_ifs at ha hb <;> simp_all
  obtain ⟨⟨n, hn⟩, halone⟩ := undisturbed ((((Memory.empty.addHostDevice "eth0").addHostDevice
    "eth1").addNamespace (.path "ns/w1")).addNamespace (.path "ns/w2") |>.fail .detach "net0")
    jobs hown hdevices hspaces w1
  refine ⟨w1, w2, eth0, eth1, jobs, by decide, rfl, rfl, n, fun schedule hcount => ?_⟩
  obtain ⟨replies, hdone⟩ := hn schedule hcount
  exact (halone schedule replies hdone).2.1

end Lifecycle

end NetRelocation
