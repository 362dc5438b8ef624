import NetRelocation.Proofs.Ledger
import NetRelocation.Proofs.Turns
import NetRelocation.Relocation.Memory

/-!
# What belongs to a workload

The *territory* of a workload is its record, the links of the host that have the names of its
devices, and the links of the namespaces that it visits. Names inside a namespace are nobody's: two
workloads may use the same one, each in its own namespace.

A program is *confined* to a territory (`Program.Confined`) if it asks the record for its workload
only, and moves its devices only, between the host and its namespaces. Of such a program two things
are shown, step by step:

* what it does depends on its territory alone (`Confined.advance`);
* what lies apart from its territory stays as it is (`Confined.advance_apart`).

The devices of a move come from the record. So a confined program stays confined only as long as the
record of its workload names its own devices (`Territory.Names`), which is kept along.
-/

namespace NetRelocation

variable {α β : Type}

/-! ## What a move reads and writes -/

namespace Memory

variable {names : Set DeviceName} {keys : Set NamespaceKey} {m m' : Memory} {device : DeviceName}
  {ns : NamespaceRef}

/-- The tables after a move from the host into a namespace. A move that was refused is counted. -/
def entered (m : Memory) (name : String) (key : NamespaceKey) : Option LinkTable → Memory
  | none => { m with calls := m.calls + 1 }
  | some links =>
    { m with
      calls := m.calls + 1
      host := m.host.erase name
      namespaces := m.namespaces.insert key links }

/-- The tables after a move from a namespace to the host. A move that was refused is counted. -/
def returned (m : Memory) (name : String) (key : NamespaceKey) :
    Option (MemoryLink × LinkTable) → Memory
  | none => { m with calls := m.calls + 1 }
  | some (link, links) =>
    { m with
      calls := m.calls + 1
      host := m.host.insert name link
      namespaces := m.namespaces.insert key links }

/-- What an attach answers and which links it leaves in the namespace is fixed by the link of the
device, the links of the namespace and the failures. -/
theorem attach_eq_entered (device : DeviceName) (ns : NamespaceRef) (config : LinkConfig)
    (addresses : List Network) (link : Option MemoryLink) (links : Option LinkTable)
    (failing : FailPoint → String → Bool) :
    ∃ answer after, ∀ m : Memory, m.host.get? device.text = link →
      m.namespaces.get? ns.key = links →
      (∀ point name, decide ((point, name) ∈ m.failures) = failing point name) →
        m.attach device ns config addresses = (answer, m.entered device.text ns.key after) := by
  cases link with
  | none => exact ⟨_, none, fun m hlink _ _ => by simp only [attach, hlink]; rfl⟩
  | some link =>
    cases links with
    | none => exact ⟨_, none, fun m hlink hlinks _ => by simp only [attach, hlink, hlinks]; rfl⟩
    | some links =>
      cases hattach : failing .attach device.text with
      | true =>
        exact ⟨_, none, fun m hlink hlinks hfailing => by
          simp only [attach, fails, hlink, hlinks, hfailing, hattach, if_true]; rfl⟩
      | false =>
        cases hrejected : if failing .address device.text = true then addresses.getLast? else none with
        | some net =>
          exact ⟨_, some _, fun m hlink hlinks hfailing => by
            simp only [attach, fails, hlink, hlinks, hfailing, hattach, Bool.false_eq_true, if_false,
              hrejected]; rfl⟩
        | none =>
          cases henable : failing .enable device.text with
          | true =>
            exact ⟨_, some _, fun m hlink hlinks hfailing => by
              simp only [attach, fails, hlink, hlinks, hfailing, hattach, Bool.false_eq_true,
                if_false, hrejected, henable, if_true]; rfl⟩
          | false =>
            exact ⟨_, some _, fun m hlink hlinks hfailing => by
              simp only [attach, fails, hlink, hlinks, hfailing, hattach, Bool.false_eq_true,
                if_false, hrejected, henable]; rfl⟩

/-- What a detach answers and what it leaves is fixed by the links of the namespace and the
failures. -/
theorem detach_eq_returned (ns : NamespaceRef) (device name : DeviceName)
    (links : Option LinkTable) (failing : FailPoint → String → Bool) :
    ∃ answer after, ∀ m : Memory, m.namespaces.get? ns.key = links →
      (∀ point name, decide ((point, name) ∈ m.failures) = failing point name) →
        m.detach ns device (some name) = (answer, m.returned name.text ns.key after) := by
  cases links with
  | none => exact ⟨_, none, fun m hlinks _ => by simp only [detach, hlinks]; rfl⟩
  | some links =>
    cases hlink : links.get? device.text with
    | none => exact ⟨_, none, fun m hlinks _ => by simp only [detach, hlinks, hlink]; rfl⟩
    | some link =>
      cases hdetach : failing .detach device.text with
      | true =>
        exact ⟨_, none, fun m hlinks hfailing => by
          simp only [detach, fails, hlinks, hlink, hfailing, hdetach, if_true]; rfl⟩
      | false =>
        cases henable : failing .enable (outgoingName link device (some name)) with
        | true =>
          exact ⟨_, some (_, _), fun m hlinks hfailing => by
            simp only [detach, fails, hlinks, hlink, hfailing, hdetach, Bool.false_eq_true, if_false,
              henable, if_true]; rfl⟩
        | false =>
          exact ⟨_, some (_, _), fun m hlinks hfailing => by
            simp only [detach, fails, hlinks, hlink, hfailing, hdetach, Bool.false_eq_true, if_false,
              henable]; rfl⟩

/-! ## Two memories that agree on some tables -/

/-- The same links under some names on the host, the same links in some namespaces, and the same
failures. -/
structure Agree (names : Set DeviceName) (keys : Set NamespaceKey) (m m' : Memory) : Prop where
  host : ∀ d ∈ names, m.host.get? d.text = m'.host.get? d.text
  inside : ∀ key ∈ keys, m.namespaces.get? key = m'.namespaces.get? key
  failures : m.failures = m'.failures

theorem Agree.refl (m : Memory) : Agree names keys m m := ⟨fun _ _ => rfl, fun _ _ => rfl, rfl⟩

theorem Agree.trans {m'' : Memory} (h : Agree names keys m m') (h' : Agree names keys m' m'') :
    Agree names keys m m'' :=
  ⟨fun d hd => (h.host d hd).trans (h'.host d hd),
    fun k hk => (h.inside k hk).trans (h'.inside k hk), h.failures.trans h'.failures⟩

theorem Agree.entered (h : Agree names keys m m') (name : String) (key : NamespaceKey)
    (after : Option LinkTable) :
    Agree names keys (m.entered name key after) (m'.entered name key after) := by
  cases after with
  | none => exact ⟨h.host, h.inside, h.failures⟩
  | some links =>
    refine ⟨fun d hd => ?_, fun k hk => ?_, h.failures⟩
    · by_cases hname : d.text = name
      · simp [Memory.entered, hname]
      · simp only [Memory.entered, SortedMap.get?_erase_ne _ hname, h.host d hd]
    · by_cases hkey : k = key
      · simp [Memory.entered, hkey]
      · simp only [Memory.entered, Table.get?_insert_ne _ _ hkey, h.inside k hk]

theorem Agree.returned (h : Agree names keys m m') (name : String) (key : NamespaceKey)
    (after : Option (MemoryLink × LinkTable)) :
    Agree names keys (m.returned name key after) (m'.returned name key after) := by
  cases after with
  | none => exact ⟨h.host, h.inside, h.failures⟩
  | some after =>
    refine ⟨fun d hd => ?_, fun k hk => ?_, h.failures⟩
    · by_cases hname : d.text = name
      · simp [Memory.returned, hname]
      · simp only [Memory.returned, SortedMap.get?_insert_ne _ _ hname, h.host d hd]
    · by_cases hkey : k = key
      · simp [Memory.returned, hkey]
      · simp only [Memory.returned, Table.get?_insert_ne _ _ hkey, h.inside k hk]

theorem text_ne_of_mem (hdevice : device ∉ names) {d : DeviceName} (hd : d ∈ names) :
    d.text ≠ device.text := by
  intro htext
  exact hdevice (DeviceName.ext_text htext ▸ hd)

theorem agree_entered (hdevice : device ∉ names) (hns : ns.key ∉ keys) (m : Memory)
    (after : Option LinkTable) : Agree names keys (m.entered device.text ns.key after) m := by
  cases after with
  | none => exact ⟨fun _ _ => rfl, fun _ _ => rfl, rfl⟩
  | some links =>
    refine ⟨fun d hd => ?_, fun k hk => ?_, rfl⟩
    · exact SortedMap.get?_erase_ne _ (text_ne_of_mem hdevice hd)
    · exact Table.get?_insert_ne _ _ fun e => hns (e ▸ hk)

theorem agree_returned (hdevice : device ∉ names) (hns : ns.key ∉ keys) (m : Memory)
    (after : Option (MemoryLink × LinkTable)) :
    Agree names keys (m.returned device.text ns.key after) m := by
  cases after with
  | none => exact ⟨fun _ _ => rfl, fun _ _ => rfl, rfl⟩
  | some after =>
    refine ⟨fun d hd => ?_, fun k hk => ?_, rfl⟩
    · exact SortedMap.get?_insert_ne _ _ (text_ne_of_mem hdevice hd)
    · exact Table.get?_insert_ne _ _ fun e => hns (e ▸ hk)

/-- Two memories that agree answer alike and go on agreeing. -/
theorem Agree.attach (h : Agree names keys m m') (hdevice : device ∈ names) (hns : ns.key ∈ keys)
    (config : LinkConfig) (addresses : List Network) :
    (m.attach device ns config addresses).1 = (m'.attach device ns config addresses).1 ∧
      Agree names keys (m.attach device ns config addresses).2
        (m'.attach device ns config addresses).2 := by
  obtain ⟨answer, after, heq⟩ := attach_eq_entered device ns config addresses
    (m'.host.get? device.text) (m'.namespaces.get? ns.key) m'.fails
  rw [heq m (h.host device hdevice) (h.inside _ hns) (by rw [h.failures]; exact fun _ _ => rfl),
    heq m' rfl rfl fun _ _ => rfl]
  exact ⟨rfl, h.entered ..⟩

theorem Agree.detach (h : Agree names keys m m') (hns : ns.key ∈ keys) (name : DeviceName) :
    (m.detach ns device (some name)).1 = (m'.detach ns device (some name)).1 ∧
      Agree names keys (m.detach ns device (some name)).2 (m'.detach ns device (some name)).2 := by
  obtain ⟨answer, after, heq⟩ := detach_eq_returned ns device name (m'.namespaces.get? ns.key)
    m'.fails
  rw [heq m (h.inside _ hns) (by rw [h.failures]; exact fun _ _ => rfl),
    heq m' rfl fun _ _ => rfl]
  exact ⟨rfl, h.returned ..⟩

theorem agree_attach (hdevice : device ∉ names) (hns : ns.key ∉ keys) (config : LinkConfig)
    (addresses : List Network) (m : Memory) :
    Agree names keys (m.attach device ns config addresses).2 m := by
  obtain ⟨answer, after, heq⟩ := attach_eq_entered device ns config addresses
    (m.host.get? device.text) (m.namespaces.get? ns.key) m.fails
  rw [heq m rfl rfl fun _ _ => rfl]
  exact agree_entered hdevice hns m after

theorem agree_detach {name : DeviceName} (hname : name ∉ names) (hns : ns.key ∉ keys) (m : Memory) :
    Agree names keys (m.detach ns device (some name)).2 m := by
  obtain ⟨answer, after, heq⟩ := detach_eq_returned ns device name (m.namespaces.get? ns.key) m.fails
  rw [heq m rfl fun _ _ => rfl]
  exact agree_returned hname hns m after

end Memory

/-! ## Territories -/

/-- What a workload may change: its own record, the links of some devices on the host, and some
namespaces. -/
structure Territory where
  workload : WorkloadId
  names : Set DeviceName
  keys : Set NamespaceKey

namespace Territory

variable (t u : Territory)

/-- The territories have nothing in common. -/
structure Apart : Prop where
  workload : t.workload ≠ u.workload
  names : ∀ d ∈ t.names, d ∉ u.names
  keys : ∀ key ∈ t.keys, key ∉ u.keys

/-- An artifact of devices of the territory. -/
def Has (artifact : PreparedArtifact) : Prop :=
  ∀ device ∈ artifact.devices, device.hostName ∈ t.names

/-- An entry, if there is one, whose artifact is of devices of the territory. -/
def Names (shown : Option Entry) : Prop :=
  ∀ entry artifact, shown = some entry → entry.prepared = some artifact → t.Has artifact

/-- An operation on the record that stays in the territory. -/
def Owns (action : StoreAction) : Prop :=
  action.workload = t.workload ∧
    ∀ w devices artifact, action = .recordPrepared w devices artifact → t.Has artifact

/-- An answer from a record that stayed in the territory. -/
def Expects : (action : StoreAction) → action.Response → Prop
  | .read _, shown => t.Names shown
  | .recordPrepared .., _ => True
  | .clearPrepared _, _ => True
  | .markAttached .., _ => True
  | .markDetached .., _ => True
  | .markNetworkDetached _, _ => True
  | .purge _, _ => True

/-- A move that stays in the territory. -/
def Spans : Relocation → Prop
  | .attach device target _ _ => device ∈ t.names ∧ target.key ∈ t.keys
  | .detach source _ restore => source.key ∈ t.keys ∧ ∃ name ∈ t.names, restore = some name

/-- Two worlds that are alike in the territory. -/
structure Alike (a b : World Memory) : Prop where
  record : a.store.read t.workload = b.store.read t.workload
  tables : Memory.Agree t.names t.keys a.relocator b.relocator

variable {t u} {a b : World Memory}

theorem Alike.refl (a : World Memory) : t.Alike a a := ⟨rfl, .refl _⟩

theorem Alike.trans {c : World Memory} (h : t.Alike a b) (h' : t.Alike b c) : t.Alike a c :=
  ⟨h.record.trans h'.record, h.tables.trans h'.tables⟩

/-! ## Operations on the record -/

theorem read_modify_congr {store store' : Store} {w : WorkloadId} (f : Entry → Entry)
    (h : store.read w = store'.read w) : (store.modify w f).read w = (store'.modify w f).read w := by
  rw [Store.read_modify_self, Store.read_modify_self, h]

/-- An operation is answered from the record of its workload, and changes it from there. -/
theorem answer_apply_congr {action : StoreAction} {store store' : Store}
    (h : store.read action.workload = store'.read action.workload) :
    action.answer store = action.answer store' ∧
      (action.apply store).read action.workload = (action.apply store').read action.workload := by
  cases action with
  | recordPrepared w devices artifact =>
    have hnew : store.entryOrNew w = store'.entryOrNew w :=
      congrArg (Option.getD · (Entry.ofGrant [])) h
    constructor
    · exact congrArg (Entry.lost · artifact) hnew
    · simp only [StoreAction.workload, StoreAction.apply, Store.recordPrepared, Store.read_put_self,
        hnew]
  | read w => exact ⟨h, h⟩
  | clearPrepared w => exact ⟨congrArg (Option.any _) h, read_modify_congr _ h⟩
  | markAttached w device => exact ⟨rfl, read_modify_congr _ h⟩
  | markDetached w device => exact ⟨rfl, read_modify_congr _ h⟩
  | markNetworkDetached w => exact ⟨rfl, read_modify_congr _ h⟩
  | purge w =>
    refine ⟨congrArg Option.isSome h, ?_⟩
    simp only [StoreAction.workload, StoreAction.apply, Store.read_purge_self]

theorem names_apply {t : Territory} {action : StoreAction} {store : Store} (howns : t.Owns action)
    (h : t.Names (store.read t.workload)) : t.Names ((action.apply store).read t.workload) := by
  obtain ⟨hw, hrecord⟩ := howns
  have hmodify (f : Entry → Entry) (hf : ∀ entry, (f entry).prepared = entry.prepared) :
      t.Names ((store.modify t.workload f).read t.workload) := by
    rintro entry artifact hentry hprepared
    rw [Store.read_modify_self] at hentry
    obtain ⟨old, hold, rfl⟩ := Option.map_eq_some_iff.1 hentry
    exact h old artifact hold ((hf old).symm.trans hprepared)
  cases action with
  | recordPrepared w devices artifact =>
    cases hw
    rintro entry artifact' hentry hprepared
    simp only [StoreAction.apply, Store.recordPrepared, Store.read_put_self] at hentry
    cases hentry
    cases hprepared
    exact hrecord _ _ _ rfl
  | read w => exact h
  | clearPrepared w =>
    cases hw
    rintro entry artifact hentry hprepared
    simp only [StoreAction.apply, Store.clearPrepared, Store.read_modify_self] at hentry
    obtain ⟨old, -, rfl⟩ := Option.map_eq_some_iff.1 hentry
    cases hprepared
  | markAttached w device =>
    cases hw
    exact hmodify _ fun _ => rfl
  | markDetached w device =>
    cases hw
    exact hmodify _ fun _ => rfl
  | markNetworkDetached w =>
    cases hw
    exact hmodify _ fun _ => rfl
  | purge w =>
    cases hw
    rintro entry artifact hentry
    simp [StoreAction.apply] at hentry

theorem expects_answer {t : Territory} {action : StoreAction} {store : Store} (howns : t.Owns action)
    (h : t.Names (store.read t.workload)) : t.Expects action (action.answer store) := by
  cases action with
  | read w =>
    obtain ⟨rfl, -⟩ := howns
    exact h
  | recordPrepared w devices artifact => trivial
  | clearPrepared w => trivial
  | markAttached w device => trivial
  | markDetached w device => trivial
  | markNetworkDetached w => trivial
  | purge w => trivial

/-! ## Moves -/

/-- Within the territory, a move in two worlds is answered alike and leaves them alike. -/
theorem Alike.answer (h : t.Alike a b) {request : Relocation} (hspans : t.Spans request) :
    (Memory.relocator.answer request a.relocator).result =
        (Memory.relocator.answer request b.relocator).result ∧
      Memory.Agree t.names t.keys (Memory.relocator.answer request a.relocator).state
        (Memory.relocator.answer request b.relocator).state := by
  cases request with
  | attach device target config addresses => exact h.tables.attach hspans.1 hspans.2 config addresses
  | detach source device restore =>
    obtain ⟨hsource, name, -, rfl⟩ := hspans
    exact h.tables.detach hsource name

/-- A move within one territory changes nothing in another. -/
theorem Apart.agree_answer (h : t.Apart u) {request : Relocation} (hspans : u.Spans request)
    (m : Memory) : Memory.Agree t.names t.keys (Memory.relocator.answer request m).state m := by
  cases request with
  | attach device target config addresses =>
    exact Memory.agree_attach (fun hd => h.names _ hd hspans.1) (fun hk => h.keys _ hk hspans.2)
      config addresses m
  | detach source device restore =>
    obtain ⟨hsource, name, hname, rfl⟩ := hspans
    exact Memory.agree_detach (fun hd => h.names _ hd hname) (fun hk => h.keys _ hk hsource) m

end Territory

/-! ## Confined programs -/

namespace Program

/-- Whatever is answered, a program stays in a territory. -/
def Confined (t : Territory) : Program α → Prop
  | done _ => True
  | store action next =>
    t.Owns action ∧ ∀ response, t.Expects action response → (next response).Confined t
  | relocate request next => t.Spans request ∧ ∀ response, (next response).Confined t
  | note _ next => next.Confined t

/-- Do the first step of a program, if it has one. -/
def advance {σ : Type} (r : Relocator σ) (p : Program α) (world : World σ) : Program α × World σ :=
  match p.step r world with
  | some s => (s.rest, s.world)
  | none => (p, world)

variable {t u : Territory} {p : Program α} {f : α → Program β} {a b : World Memory}

theorem Confined.bind (hp : p.Confined t) (hf : ∀ a, (f a).Confined t) : (p >>= f).Confined t := by
  rw [bind_eq]
  induction p with
  | done a => exact hf a
  | store action next ih => exact ⟨hp.1, fun response h => ih response (hp.2 response h)⟩
  | relocate request next ih => exact ⟨hp.1, fun response => ih response (hp.2 response)⟩
  | note notice next ih => exact ih hp

theorem confined_ofNotices (l : List Notice) : (ofNotices l).Confined t := by
  induction l with
  | nil => trivial
  | cons notice l ih => exact ih

/-- **What a confined program does depends on its territory alone.** Its step in two worlds that are
alike there goes on alike, and the worlds stay alike. -/
theorem Confined.advance (hp : p.Confined t) (hnames : t.Names (a.store.read t.workload))
    (h : t.Alike a b) :
    (p.advance Memory.relocator a).1 = (p.advance Memory.relocator b).1 ∧
      (p.advance Memory.relocator a).1.Confined t ∧
      t.Names ((p.advance Memory.relocator a).2.store.read t.workload) ∧
      t.Alike (p.advance Memory.relocator a).2 (p.advance Memory.relocator b).2 := by
  cases p with
  | done x => exact ⟨rfl, trivial, hnames, h⟩
  | store action next =>
    obtain ⟨howns, hnext⟩ := hp
    have hrecord : a.store.read action.workload = b.store.read action.workload :=
      howns.1 ▸ h.record
    obtain ⟨hanswer, hread⟩ := Territory.answer_apply_congr hrecord
    refine ⟨congrArg next hanswer, hnext _ (Territory.expects_answer howns hnames),
      Territory.names_apply howns hnames, howns.1 ▸ hread, h.tables⟩
  | relocate request next =>
    obtain ⟨hspans, hnext⟩ := hp
    obtain ⟨hresult, hstate⟩ := h.answer hspans
    exact ⟨congrArg next hresult, hnext _, hnames, h.record, hstate⟩
  | note notice next => exact ⟨rfl, hp, hnames, h⟩

/-- **A confined program changes nothing apart from its territory.** -/
theorem Confined.advance_apart (hp : p.Confined u) (h : t.Apart u) (a : World Memory) :
    t.Alike (p.advance Memory.relocator a).2 a := by
  cases p with
  | done x => exact .refl a
  | store action next =>
    refine ⟨StoreAction.read_apply_of_ne ?_ a.store, .refl _⟩
    rw [hp.1.1]
    exact h.workload
  | relocate request next => exact ⟨rfl, h.agree_answer hp.1 a.relocator⟩
  | note notice next => exact .refl a

end Program

end NetRelocation
