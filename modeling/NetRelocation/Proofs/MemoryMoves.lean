import NetRelocation.Proofs.Calls
import NetRelocation.Relocation.Memory

/-!
# Moving devices between tables

Moving some devices into a namespace changes the tables under the names of these devices alone
(`MovedIn`), and so does moving them back (`MovedOut`). Both loops of the coordinator do this for
all their devices, if nothing is in the way (`Enterable`, `Leavable`): the names are distinct, the
links are where they are expected, their places are free and no failure is set for them.

Each loop is an induction over the devices. Moving the first device keeps what is needed for the
others, and the tables after the first and the others are the tables after all
(`MovedIn.cons`, `MovedOut.cons`).
-/

namespace NetRelocation

namespace PreparedDevice

def hostTexts (devices : List PreparedDevice) : List String := devices.map (·.hostName.text)

/-- The texts of the names inside the namespace. -/
def insideTexts (devices : List PreparedDevice) : List String :=
  devices.map (·.namespaceName.text)

end PreparedDevice

namespace Memory

open PreparedDevice

variable {m m' m'' : Memory} {ns : NamespaceRef} {device : PreparedDevice}
  {devices : List PreparedDevice}

/-! ## One device -/

/-- The link of a device inside a namespace, given its link on the host. -/
def arrive (device : PreparedDevice) (link : MemoryLink) : MemoryLink :=
  configure link device.config device.addresses true

/-- The link of a device that is back on the host, given its link inside the namespace. -/
def leave (link : MemoryLink) : MemoryLink := { link with up := true, addresses := [] }

/-- What is said of a device that arrived. -/
def arrival (m : Memory) (device : PreparedDevice) : NetworkDeviceData :=
  ⟨device.namespaceName.text,
    ((m.host.get? device.hostName.text).map fun link =>
      (device.config.hardwareAddr.getD link.hardwareAddr).display).getD "",
    device.addresses.map (·.host)⟩

/-- An attach that nothing keeps from succeeding. -/
theorem attach_ok {link : MemoryLink} {links : LinkTable}
    (hlink : m.host.get? device.hostName.text = some link)
    (hlinks : m.namespaces.get? ns.key = some links)
    (hfails : ∀ point, m.fails point device.hostName.text = false) :
    m.attach device.hostName ns device.config device.addresses =
      (.ok (m.arrival device),
        { m with
          calls := m.calls + 1
          host := m.host.erase device.hostName.text
          namespaces :=
            m.namespaces.insert ns.key
              (links.insert device.namespaceName.text (arrive device link)) }) := by
  have hfails' : ∀ point,
      ({ m with calls := m.calls + 1 } : Memory).fails point device.hostName.text = false := hfails
  simp [attach, hlink, hlinks, hfails', arrival, arrive, configure, namespaceName]

/-- A detach that nothing keeps from succeeding. -/
theorem detach_ok {link : MemoryLink} {links : LinkTable}
    (hlinks : m.namespaces.get? ns.key = some links)
    (hlink : links.get? device.namespaceName.text = some link)
    (hfails : ∀ point, m.fails point device.hostName.text = false)
    (hfails' : ∀ point, m.fails point device.namespaceName.text = false) :
    m.detach ns device.namespaceName (some device.hostName) =
      (.ok (),
        { m with
          calls := m.calls + 1
          host := m.host.insert device.hostName.text (leave link)
          namespaces := m.namespaces.insert ns.key (links.erase device.namespaceName.text) }) := by
  have hhost : ∀ point,
      ({ m with calls := m.calls + 1 } : Memory).fails point device.hostName.text = false := hfails
  have hinside : ∀ point,
      ({ m with calls := m.calls + 1 } : Memory).fails point device.namespaceName.text = false :=
    hfails'
  simp [detach, hlink, hlinks, hhost, hinside, outgoingName, leave]

/-! ## What changes -/

/-- Nothing but the links of some devices is changed. -/
structure Untouched (ns : NamespaceRef) (devices : List PreparedDevice) (m m' : Memory) : Prop where
  host : ∀ name, name ∉ hostTexts devices → m'.host.get? name = m.host.get? name
  inside : ∀ name, name ∉ insideTexts devices → m'.namespaceLink ns name = m.namespaceLink ns name
  elsewhere : ∀ key, key ≠ ns.key → m'.namespaces.get? key = m.namespaces.get? key
  known : (m'.namespaces.get? ns.key).isSome = (m.namespaces.get? ns.key).isSome
  failures : m'.failures = m.failures

/-- The tables before and after some devices were moved into a namespace. -/
structure MovedIn (ns : NamespaceRef) (devices : List PreparedDevice) (m m' : Memory) : Prop
    extends Untouched ns devices m m' where
  absent : ∀ device ∈ devices, m'.host.get? device.hostName.text = none
  arrived : ∀ device ∈ devices, m'.namespaceLink ns device.namespaceName.text =
    (m.host.get? device.hostName.text).map (arrive device)

/-- The tables before and after some devices were moved back to the host. -/
structure MovedOut (ns : NamespaceRef) (devices : List PreparedDevice) (m m' : Memory) : Prop
    extends Untouched ns devices m m' where
  absent : ∀ device ∈ devices, m'.namespaceLink ns device.namespaceName.text = none
  arrived : ∀ device ∈ devices, m'.host.get? device.hostName.text =
    (m.namespaceLink ns device.namespaceName.text).map leave

theorem untouched_nil (ns : NamespaceRef) (m : Memory) : Untouched ns [] m m :=
  ⟨fun _ _ => rfl, fun _ _ => rfl, fun _ _ => rfl, rfl, rfl⟩

theorem Untouched.cons (hfirst : Untouched ns [device] m m')
    (hrest : Untouched ns devices m' m'') : Untouched ns (device :: devices) m m'' where
  host name h := by
    rw [hostTexts, List.map_cons, List.mem_cons, not_or] at h
    rw [hrest.host name h.2, hfirst.host name (by simpa [hostTexts] using h.1)]
  inside name h := by
    rw [insideTexts, List.map_cons, List.mem_cons, not_or] at h
    rw [hrest.inside name h.2, hfirst.inside name (by simpa [insideTexts] using h.1)]
  elsewhere key h := (hrest.elsewhere key h).trans (hfirst.elsewhere key h)
  known := hrest.known.trans hfirst.known
  failures := hrest.failures.trans hfirst.failures

/-- Another device is not among those that were moved. -/
theorem Untouched.of_ne (h : Untouched ns [device] m m') {d : PreparedDevice}
    (hhost : d.hostName.text ≠ device.hostName.text)
    (hinside : d.namespaceName.text ≠ device.namespaceName.text) :
    m'.host.get? d.hostName.text = m.host.get? d.hostName.text ∧
      m'.namespaceLink ns d.namespaceName.text = m.namespaceLink ns d.namespaceName.text :=
  ⟨h.host _ (by simpa [hostTexts] using hhost), h.inside _ (by simpa [insideTexts] using hinside)⟩

/-! ## Distinct names -/

/-- The devices have distinct names on the host and inside the namespace. -/
structure Distinct (devices : List PreparedDevice) : Prop where
  host : (hostTexts devices).Nodup
  inside : (insideTexts devices).Nodup

theorem Distinct.tail (h : Distinct (device :: devices)) : Distinct devices :=
  ⟨(List.nodup_cons.1 h.host).2, (List.nodup_cons.1 h.inside).2⟩

theorem Distinct.not_mem (h : Distinct (device :: devices)) :
    device.hostName.text ∉ hostTexts devices ∧
      device.namespaceName.text ∉ insideTexts devices :=
  ⟨(List.nodup_cons.1 h.host).1, (List.nodup_cons.1 h.inside).1⟩

theorem Distinct.ne (h : Distinct (device :: devices)) {d : PreparedDevice} (hd : d ∈ devices) :
    d.hostName.text ≠ device.hostName.text ∧
      d.namespaceName.text ≠ device.namespaceName.text := by
  obtain ⟨hhost, hinside⟩ := h.not_mem
  exact ⟨fun he => hhost (he ▸ List.mem_map_of_mem hd),
    fun he => hinside (he ▸ List.mem_map_of_mem hd)⟩

theorem MovedIn.cons (hfirst : MovedIn ns [device] m m') (hrest : MovedIn ns devices m' m'')
    (h : Distinct (device :: devices)) : MovedIn ns (device :: devices) m m'' where
  toUntouched := hfirst.toUntouched.cons hrest.toUntouched
  absent := by
    rintro d (_ | ⟨_, hd⟩)
    · rw [hrest.host _ h.not_mem.1]
      exact hfirst.absent device List.mem_cons_self
    · exact hrest.absent d hd
  arrived := by
    rintro d (_ | ⟨_, hd⟩)
    · rw [hrest.inside _ h.not_mem.2]
      exact hfirst.arrived device List.mem_cons_self
    · obtain ⟨hhost, hinside⟩ := h.ne hd
      rw [hrest.arrived d hd, (hfirst.of_ne hhost hinside).1]

theorem MovedOut.cons (hfirst : MovedOut ns [device] m m') (hrest : MovedOut ns devices m' m'')
    (h : Distinct (device :: devices)) : MovedOut ns (device :: devices) m m'' where
  toUntouched := hfirst.toUntouched.cons hrest.toUntouched
  absent := by
    rintro d (_ | ⟨_, hd⟩)
    · rw [hrest.inside _ h.not_mem.2]
      exact hfirst.absent device List.mem_cons_self
    · exact hrest.absent d hd
  arrived := by
    rintro d (_ | ⟨_, hd⟩)
    · rw [hrest.host _ h.not_mem.1]
      exact hfirst.arrived device List.mem_cons_self
    · obtain ⟨hhost, hinside⟩ := h.ne hd
      rw [hrest.arrived d hd, (hfirst.of_ne hhost hinside).2]

/-! ## Nothing in the way -/

/-- No step fails for the devices. -/
def Unfailing (devices : List PreparedDevice) (m : Memory) : Prop :=
  ∀ device ∈ devices, ∀ point,
    m.fails point device.hostName.text = false ∧ m.fails point device.namespaceName.text = false

theorem Unfailing.of_untouched (h : Unfailing (device :: devices) m)
    (hm : Untouched ns [device] m m') : Unfailing devices m' := by
  intro d hd point
  unfold fails
  rw [hm.failures]
  exact h d (List.mem_cons_of_mem _ hd) point

/-- The devices are on the host, and their names are free in the namespace. -/
structure Enterable (ns : NamespaceRef) (devices : List PreparedDevice) (m : Memory) : Prop where
  known : (m.namespaces.get? ns.key).isSome = true
  distinct : Distinct devices
  present : ∀ device ∈ devices, (m.host.get? device.hostName.text).isSome = true
  free : ∀ device ∈ devices, m.namespaceLink ns device.namespaceName.text = none
  unfailing : Unfailing devices m

/-- The devices are in the namespace. -/
structure Leavable (ns : NamespaceRef) (devices : List PreparedDevice) (m : Memory) : Prop where
  distinct : Distinct devices
  present : ∀ device ∈ devices, (m.namespaceLink ns device.namespaceName.text).isSome = true
  unfailing : Unfailing devices m

theorem Enterable.tail (h : Enterable ns (device :: devices) m) (hm : Untouched ns [device] m m') :
    Enterable ns devices m' where
  known := hm.known.trans h.known
  distinct := h.distinct.tail
  present d hd := by
    obtain ⟨hhost, hinside⟩ := h.distinct.ne hd
    rw [(hm.of_ne hhost hinside).1]
    exact h.present d (List.mem_cons_of_mem _ hd)
  free d hd := by
    obtain ⟨hhost, hinside⟩ := h.distinct.ne hd
    rw [(hm.of_ne hhost hinside).2]
    exact h.free d (List.mem_cons_of_mem _ hd)
  unfailing := h.unfailing.of_untouched hm

theorem Leavable.tail (h : Leavable ns (device :: devices) m) (hm : Untouched ns [device] m m') :
    Leavable ns devices m' where
  distinct := h.distinct.tail
  present d hd := by
    obtain ⟨hhost, hinside⟩ := h.distinct.ne hd
    rw [(hm.of_ne hhost hinside).2]
    exact h.present d (List.mem_cons_of_mem _ hd)
  unfailing := h.unfailing.of_untouched hm

/-- Devices that were moved in can be moved out. -/
theorem Enterable.leavable (h : Enterable ns devices m) (hm : MovedIn ns devices m m') :
    Leavable ns devices m' where
  distinct := h.distinct
  present d hd := by
    rw [hm.arrived d hd, Option.isSome_map]
    exact h.present d hd
  unfailing d hd point := by
    unfold fails
    rw [hm.failures]
    exact h.unfailing d hd point

/-! ## In and out again -/

/-- A device that was moved in and out is back with its link. -/
theorem MovedIn.host_movedOut (hin : MovedIn ns devices m m') (hout : MovedOut ns devices m' m'')
    (hdevice : device ∈ devices) :
    m''.host.get? device.hostName.text =
      (m.host.get? device.hostName.text).map fun link => leave (arrive device link) := by
  rw [hout.arrived device hdevice, hin.arrived device hdevice, Option.map_map]
  rfl

/-- A namespace in which the names were free is as it was once the devices were moved out. -/
theorem MovedIn.namespaces_movedOut (hin : MovedIn ns devices m m')
    (hout : MovedOut ns devices m' m'')
    (hfree : ∀ device ∈ devices, m.namespaceLink ns device.namespaceName.text = none)
    (key : NamespaceKey) : m''.namespaces.get? key = m.namespaces.get? key := by
  by_cases hkey : key = ns.key
  · subst hkey
    have hlink : ∀ name, m''.namespaceLink ns name = m.namespaceLink ns name := by
      intro name
      by_cases hname : name ∈ insideTexts devices
      · obtain ⟨device, hdevice, rfl⟩ := List.mem_map.1 hname
        rw [hout.absent device hdevice, hfree device hdevice]
      · rw [hout.inside name hname, hin.inside name hname]
    have hknown := hout.known.trans hin.known
    cases hm : m.namespaces.get? ns.key with
    | none =>
      rw [hm] at hknown
      exact Option.isSome_eq_false_iff.1 hknown |> Option.isNone_iff_eq_none.1
    | some links =>
      rw [hm] at hknown
      obtain ⟨links', hm''⟩ := Option.isSome_iff_exists.1 hknown
      have heq : links' = links := by
        refine SortedMap.ext_get? fun name => ?_
        have hname := hlink name
        rwa [namespaceLink, namespaceLink, hm, hm''] at hname
      rw [hm'', heq]
  · exact (hout.elsewhere key hkey).trans (hin.elsewhere key hkey)

/-! ## One move -/

theorem movedIn_attach (h : Enterable ns (device :: devices) m) :
    ∃ m', m.attach device.hostName ns device.config device.addresses =
        (.ok (m.arrival device), m') ∧
      MovedIn ns [device] m m' := by
  obtain ⟨links, hlinks⟩ := Option.isSome_iff_exists.1 h.known
  obtain ⟨link, hlink⟩ := Option.isSome_iff_exists.1 (h.present device List.mem_cons_self)
  have hfails := fun point => (h.unfailing device List.mem_cons_self point).1
  refine ⟨_, attach_ok hlink hlinks hfails, ⟨?_, ?_, ?_, ?_, rfl⟩, ?_, ?_⟩
  · intro name hname
    exact SortedMap.get?_erase_ne _ (by simpa [hostTexts] using hname)
  · intro name hname
    simp only [namespaceLink, Table.get?_insert_self, hlinks, Option.bind_some]
    exact SortedMap.get?_insert_ne _ _ (by simpa [insideTexts] using hname)
  · intro key hkey
    exact Table.get?_insert_ne _ _ hkey
  · simp [hlinks]
  · intro d hd
    rw [List.mem_singleton] at hd
    rw [hd]
    exact SortedMap.get?_erase_self _ _
  · intro d hd
    rw [List.mem_singleton] at hd
    rw [hd, hlink]
    simp [namespaceLink]

theorem movedOut_detach (h : Leavable ns (device :: devices) m) :
    ∃ m', m.detach ns device.namespaceName (some device.hostName) = (.ok (), m') ∧
      MovedOut ns [device] m m' := by
  obtain ⟨link, hinside⟩ := Option.isSome_iff_exists.1 (h.present device List.mem_cons_self)
  obtain ⟨links, hlinks, hlink⟩ := Option.bind_eq_some_iff.1 hinside
  have hfails := h.unfailing device List.mem_cons_self
  refine ⟨_, detach_ok hlinks hlink (fun point => (hfails point).1) fun point => (hfails point).2,
    ⟨?_, ?_, ?_, ?_, rfl⟩, ?_, ?_⟩
  · intro name hname
    exact SortedMap.get?_insert_ne _ _ (by simpa [hostTexts] using hname)
  · intro name hname
    simp only [namespaceLink, Table.get?_insert_self, hlinks, Option.bind_some]
    exact SortedMap.get?_erase_ne _ (by simpa [insideTexts] using hname)
  · intro key hkey
    exact Table.get?_insert_ne _ _ hkey
  · simp [hlinks]
  · intro d hd
    rw [List.mem_singleton] at hd
    rw [hd]
    simp [namespaceLink]
  · intro d hd
    rw [List.mem_singleton] at hd
    rw [hd, hinside]
    exact SortedMap.get?_insert_self _ _ _

end Memory

end NetRelocation
