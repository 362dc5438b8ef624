import NetRelocation.Proofs.Calls
import NetRelocation.Relocation.Memory

/-!
# One move between tables

A link stands at a site, the host or a namespace, under a name; both together are its `Berth`. A
request to the tables either carries one link from its berth to another (`Carried`) or leaves every
table as it is, and the answer tells which.

**Theorem (`requests_carry_or_leave`).** A request carries a link exactly if the link and the
namespace are there and the move is not set to fail. The answer is then a success, or an error after
which the device has moved; after any other error the tables are what they were. An attach gives the
link its configuration, a detach takes its addresses away and gives it its name outside
(`Outgoing`), and nothing else changes. How far the link got is told by the answer (`Landing`,
`Homecoming`).

Both directions are settled by going through the code once (`attach_cases`, `detach_cases`); that
nothing else changes is a fact about two tables (`carried_in`, `carried_out`).
-/

namespace NetRelocation

namespace Memory

/-! ## Berths -/

/-- Where links are. -/
inductive Site where
  | host
  | inside (key : NamespaceKey)
  deriving DecidableEq

/-- A name at a site. -/
structure Berth where
  site : Site
  name : String
  deriving DecidableEq

def links? (m : Memory) : Site → Option LinkTable
  | .host => some m.host
  | .inside key => m.namespaces.get? key

def link? (m : Memory) (berth : Berth) : Option MemoryLink :=
  (m.links? berth.site).bind (·.get? berth.name)

/-- One link went from a berth to another and changed on the way, and no other berth changed. -/
structure Carried (m m' : Memory) (source destination : Berth) (link link' : MemoryLink) :
    Prop where
  found : m.link? source = some link
  gone : m'.link? source = none
  arrived : m'.link? destination = some link'
  others : ∀ berth, berth ≠ source → berth ≠ destination → m'.link? berth = m.link? berth
  sites : ∀ site, (m'.links? site).isSome = (m.links? site).isSome

variable {m m' : Memory} {key : NamespaceKey} {name newName : String} {link link' : MemoryLink}
  {links : LinkTable}

/-- A link that is put from the table of the host into that of a namespace. -/
theorem carried_in (hlink : m.host.get? name = some link)
    (hlinks : m.namespaces.get? key = some links) (hhost : m'.host = m.host.erase name)
    (hinside : m'.namespaces = m.namespaces.insert key (links.insert newName link')) :
    Carried m m' ⟨.host, name⟩ ⟨.inside key, newName⟩ link link' where
  found := hlink
  gone := by
    show m'.host.get? name = none
    rw [hhost, SortedMap.get?_erase_self]
  arrived := by
    show (m'.namespaces.get? key).bind _ = _
    rw [hinside, Table.get?_insert_self]
    exact SortedMap.get?_insert_self links newName link'
  others berth hsource hdestination := by
    obtain ⟨site, other⟩ := berth
    cases site with
    | host =>
      have hother : other ≠ name := fun h => hsource (h ▸ rfl)
      show m'.host.get? other = m.host.get? other
      rw [hhost, SortedMap.get?_erase_ne _ hother]
    | inside key' =>
      show (m'.namespaces.get? key').bind _ = (m.namespaces.get? key').bind _
      rw [hinside]
      by_cases hkey : key' = key
      · subst hkey
        have hother : other ≠ newName := fun h => hdestination (h ▸ rfl)
        rw [Table.get?_insert_self, hlinks]
        exact SortedMap.get?_insert_ne links link' hother
      · rw [Table.get?_insert_ne _ _ hkey]
  sites site := by
    cases site with
    | host => rfl
    | inside key' =>
      show (m'.namespaces.get? key').isSome = (m.namespaces.get? key').isSome
      rw [hinside]
      by_cases hkey : key' = key
      · rw [hkey, Table.get?_insert_self, hlinks]
        rfl
      · rw [Table.get?_insert_ne _ _ hkey]

/-- A link that is put from the table of a namespace into that of the host. -/
theorem carried_out (hlinks : m.namespaces.get? key = some links)
    (hlink : links.get? name = some link) (hhost : m'.host = m.host.insert newName link')
    (hinside : m'.namespaces = m.namespaces.insert key (links.erase name)) :
    Carried m m' ⟨.inside key, name⟩ ⟨.host, newName⟩ link link' where
  found := by
    show (m.namespaces.get? key).bind _ = _
    rw [hlinks]
    exact hlink
  gone := by
    show (m'.namespaces.get? key).bind _ = _
    rw [hinside, Table.get?_insert_self]
    exact SortedMap.get?_erase_self links name
  arrived := by
    show m'.host.get? newName = some link'
    rw [hhost, SortedMap.get?_insert_self]
  others berth hsource hdestination := by
    obtain ⟨site, other⟩ := berth
    cases site with
    | host =>
      have hother : other ≠ newName := fun h => hdestination (h ▸ rfl)
      show m'.host.get? other = m.host.get? other
      rw [hhost, SortedMap.get?_insert_ne _ _ hother]
    | inside key' =>
      show (m'.namespaces.get? key').bind _ = (m.namespaces.get? key').bind _
      rw [hinside]
      by_cases hkey : key' = key
      · subst hkey
        have hother : other ≠ name := fun h => hsource (h ▸ rfl)
        rw [Table.get?_insert_self, hlinks]
        exact SortedMap.get?_erase_ne links hother
      · rw [Table.get?_insert_ne _ _ hkey]
  sites site := by
    cases site with
    | host => rfl
    | inside key' =>
      show (m'.namespaces.get? key').isSome = (m.namespaces.get? key').isSome
      rw [hinside]
      by_cases hkey : key' = key
      · rw [hkey, Table.get?_insert_self, hlinks]
        rfl
      · rw [Table.get?_insert_ne _ _ hkey]

/-! ## What becomes of a link -/

/-- What the answer to an attach tells of a link that has moved: the addresses that it got, and
whether it is up. -/
inductive Landing (target : NamespaceRef) (name : String) (addr : HardwareAddr)
    (addresses : List Network) : Except Error NetworkDeviceData → List Network → Bool → Prop
  | up :
      Landing target name addr addresses
        (.ok ⟨name, addr.display, addresses.map (·.host)⟩) addresses true
  | lacking {before last} (h : addresses = before ++ [last]) :
      Landing target name addr addresses
        (.error (.addressAssignment last.display target.display "file exists (mock)")) before false
  | down :
      Landing target name addr addresses
        (.error (.enableFailed name target.display "device or resource busy (mock)"))
        addresses false

/-- What the answer to a detach tells of a link that has moved: whether it is up. -/
inductive Homecoming (name : String) : Except Error Unit → Bool → Prop
  | up : Homecoming name (.ok ()) true
  | down :
      Homecoming name (.error (.enableFailed name "host" "device or resource busy (mock)")) false

/-- The name of a link that is taken out: the wanted one, else an alias that is not empty, else the
name inside. -/
inductive Outgoing (link : MemoryLink) (device : DeviceName) : Option DeviceName → String → Prop
  | wanted (name : DeviceName) : Outgoing link device (some name) name.text
  | alias {other : String} (h : link.aliasName = some other) (hne : other ≠ "") :
      Outgoing link device none other
  | own (h : ∀ other ∈ link.aliasName, other = "") : Outgoing link device none device.text

theorem Landing.moved {target : NamespaceRef} {addr : HardwareAddr}
    {addresses applied : List Network} {answer : Except Error NetworkDeviceData} {up : Bool}
    (h : Landing target name addr addresses answer applied up) : moved answer = true := by
  cases h <;> rfl

theorem Homecoming.moved {answer : Except Error Unit} {up : Bool} (h : Homecoming name answer up) :
    moved answer = true := by
  cases h <;> rfl

theorem outgoing_outgoingName (link : MemoryLink) (device : DeviceName)
    (restore : Option DeviceName) :
    Outgoing link device restore (outgoingName link device restore) := by
  cases restore with
  | some name => exact .wanted name
  | none =>
    cases halias : link.aliasName with
    | none =>
      rw [outgoingName, halias]
      exact .own (by simp [halias])
    | some other =>
      by_cases hempty : other = ""
      · rw [outgoingName, halias, hempty]
        exact .own (by simp [halias, hempty])
      · have hkept : (some other).filter (· ≠ "") = some other := by simp [hempty]
        rw [outgoingName, halias, hkept]
        exact .alias halias hempty

/-! ## Going through the code -/

/-- Nothing keeps a link from being moved into a namespace. -/
structure MayEnter (m : Memory) (device : DeviceName) (target : NamespaceRef) : Prop where
  present : (m.host.get? device.text).isSome = true
  known : (m.namespaces.get? target.key).isSome = true
  granted : m.fails .attach device.text = false

/-- Nothing keeps a link from being moved to the host. -/
structure MayLeave (m : Memory) (source : NamespaceRef) (device : DeviceName) : Prop where
  present : (m.namespaceLink source device.text).isSome = true
  granted : m.fails .detach device.text = false

/-- An attach is refused, or its link lands in the namespace. -/
theorem attach_cases (m : Memory) (device : DeviceName) (target : NamespaceRef)
    (config : LinkConfig) (addresses : List Network) :
    (∃ e, ¬m.MayEnter device target ∧ e.deviceMoved = false ∧
      m.attach device target config addresses = (.error e, { m with calls := m.calls + 1 })) ∨
    ∃ link links applied up answer,
      m.host.get? device.text = some link ∧ m.namespaces.get? target.key = some links ∧
      m.fails .attach device.text = false ∧
      Landing target (config.name.getD device).text
        (config.hardwareAddr.getD link.hardwareAddr) addresses answer applied up ∧
      m.attach device target config addresses =
        (answer, { m with
          calls := m.calls + 1
          host := m.host.erase device.text
          namespaces := m.namespaces.insert target.key
            (links.insert (config.name.getD device).text
              (configure link config applied up)) }) := by
  have hfails : ∀ point,
      ({ m with calls := m.calls + 1 } : Memory).fails point device.text =
        m.fails point device.text := fun _ => rfl
  cases hlink : m.host.get? device.text with
  | none =>
    refine .inl ⟨.notFound .device device.text, fun h => ?_, rfl, by simp [attach, hlink]⟩
    simpa [hlink] using h.present
  | some link =>
    cases hlinks : m.namespaces.get? target.key with
    | none =>
      refine .inl ⟨.notFound .namespaceFile target.display, fun h => ?_, rfl,
        by simp [attach, hlink, hlinks]⟩
      simpa [hlinks] using h.known
    | some links =>
      cases hattach : m.fails .attach device.text with
      | true =>
        refine .inl ⟨refused (.move device.text target), fun h => ?_, rfl,
          by simp [attach, hlink, hlinks, hfails, hattach]⟩
        simpa [hattach] using h.granted
      | false =>
        -- what is left to decide is whether an address is rejected and whether the link stays down
        cases hrejected : if m.fails .address device.text then addresses.getLast? else none with
        | some last =>
          obtain ⟨haddress, hlast⟩ := Option.ite_none_right_eq_some.1 hrejected
          obtain ⟨before, rfl⟩ := List.getLast?_eq_some_iff.1 hlast
          refine .inr ⟨link, links, before, false, _, rfl, rfl, rfl, .lacking rfl, ?_⟩
          simp [attach, hlink, hlinks, hfails, hattach, haddress]
        | none =>
          cases hdown : m.fails .enable device.text with
          | true =>
            refine .inr ⟨link, links, addresses, false, _, rfl, rfl, rfl, .down, ?_⟩
            simp [attach, hlink, hlinks, hfails, hattach, hrejected, hdown]
          | false =>
            refine .inr ⟨link, links, addresses, true, _, rfl, rfl, rfl, .up, ?_⟩
            simp [attach, hlink, hlinks, hfails, hattach, hrejected, hdown, configure]

/-- A detach is refused, or its link comes to the host. -/
theorem detach_cases (m : Memory) (source : NamespaceRef) (device : DeviceName)
    (restore : Option DeviceName) :
    (∃ e, ¬m.MayLeave source device ∧ e.deviceMoved = false ∧
      m.detach source device restore = (.error e, { m with calls := m.calls + 1 })) ∨
    ∃ link links up answer,
      m.namespaces.get? source.key = some links ∧ links.get? device.text = some link ∧
      m.fails .detach device.text = false ∧
      Homecoming (outgoingName link device restore) answer up ∧
      m.detach source device restore =
        (answer, { m with
          calls := m.calls + 1
          host := m.host.insert (outgoingName link device restore)
            { link with addresses := [], up := up }
          namespaces := m.namespaces.insert source.key (links.erase device.text) }) := by
  have hfails : ∀ point name,
      ({ m with calls := m.calls + 1 } : Memory).fails point name = m.fails point name :=
    fun _ _ => rfl
  cases hlinks : m.namespaces.get? source.key with
  | none =>
    refine .inl ⟨.notFound .namespaceFile source.display, fun h => ?_, rfl,
      by simp [detach, hlinks]⟩
    simpa [namespaceLink, hlinks] using h.present
  | some links =>
    cases hlink : links.get? device.text with
    | none =>
      refine .inl ⟨.notFound .device device.text, fun h => ?_, rfl,
        by simp [detach, hlinks, hlink]⟩
      simpa [namespaceLink, hlinks, hlink] using h.present
    | some link =>
      cases hdetach : m.fails .detach device.text with
      | true =>
        refine .inl ⟨refused (.takeOut device.text source), fun h => ?_, rfl,
          by simp [detach, hlinks, hlink, hfails, hdetach]⟩
        simpa [hdetach] using h.granted
      | false =>
        cases hdown : m.fails .enable (outgoingName link device restore) with
        | true =>
          refine .inr ⟨link, links, false, _, rfl, hlink, rfl, .down, ?_⟩
          simp [detach, hlinks, hlink, hfails, hdetach, hdown]
        | false =>
          refine .inr ⟨link, links, true, _, rfl, hlink, rfl, .up, ?_⟩
          simp [detach, hlinks, hlink, hfails, hdetach, hdown]

/-! ## The contract -/

section

variable (m : Memory) (device : DeviceName) (ns : NamespaceRef) (config : LinkConfig)
  (addresses : List Network) (restore : Option DeviceName)

theorem moved_attach_iff :
    moved (m.attach device ns config addresses).1 = true ↔ m.MayEnter device ns := by
  obtain ⟨e, hbarred, he, ho⟩ | ⟨link, links, applied, up, answer, hlink, hlinks, hgranted,
    hlanding, ho⟩ := m.attach_cases device ns config addresses
  · rw [ho]
    exact iff_of_false (by simp [moved, he]) hbarred
  · rw [ho]
    exact iff_of_true hlanding.moved ⟨by rw [hlink]; rfl, by rw [hlinks]; rfl, hgranted⟩

theorem moved_detach_iff :
    moved (m.detach ns device restore).1 = true ↔ m.MayLeave ns device := by
  obtain ⟨e, hbarred, he, ho⟩ | ⟨link, links, up, answer, hlinks, hlink, hgranted, hcoming, ho⟩ :=
    m.detach_cases ns device restore
  · rw [ho]
    exact iff_of_false (by simp [moved, he]) hbarred
  · rw [ho]
    exact iff_of_true hcoming.moved
      ⟨by rw [namespaceLink, hlinks, Option.bind_some, hlink]; rfl, hgranted⟩

variable {m device ns config addresses restore}

/-- An attach that was refused changes no table. -/
theorem attach_of_not_moved (h : moved (m.attach device ns config addresses).1 = false) :
    (m.attach device ns config addresses).2 = { m with calls := m.calls + 1 } := by
  obtain ⟨e, -, -, ho⟩ | ⟨_, _, _, _, answer, -, -, -, hlanding, ho⟩ :=
    m.attach_cases device ns config addresses
  · rw [ho]
  · rw [ho, hlanding.moved] at h
    cases h

theorem detach_of_not_moved (h : moved (m.detach ns device restore).1 = false) :
    (m.detach ns device restore).2 = { m with calls := m.calls + 1 } := by
  obtain ⟨e, -, -, ho⟩ | ⟨_, _, _, answer, -, -, -, hcoming, ho⟩ := m.detach_cases ns device restore
  · rw [ho]
  · rw [ho, hcoming.moved] at h
    cases h

/-- **An attach that was not refused** carries its link into the namespace. -/
theorem carried_attach (h : moved (m.attach device ns config addresses).1 = true) :
    ∃ link applied up,
      Landing ns (config.name.getD device).text (config.hardwareAddr.getD link.hardwareAddr)
        addresses (m.attach device ns config addresses).1 applied up ∧
      Carried m (m.attach device ns config addresses).2 ⟨.host, device.text⟩
        ⟨.inside ns.key, (config.name.getD device).text⟩ link
        (configure link config applied up) := by
  obtain ⟨e, -, he, ho⟩ | ⟨link, links, applied, up, answer, hlink, hlinks, -, hlanding, ho⟩ :=
    m.attach_cases device ns config addresses
  · rw [ho, moved, he] at h
    cases h
  · rw [ho]
    exact ⟨link, applied, up, hlanding, carried_in hlink hlinks rfl rfl⟩

/-- **A detach that was not refused** carries its link to the host. -/
theorem carried_detach (h : moved (m.detach ns device restore).1 = true) :
    ∃ link up,
      Homecoming (outgoingName link device restore) (m.detach ns device restore).1 up ∧
      Carried m (m.detach ns device restore).2 ⟨.inside ns.key, device.text⟩
        ⟨.host, outgoingName link device restore⟩ link
        { link with addresses := [], up := up } := by
  obtain ⟨e, -, he, ho⟩ | ⟨link, links, up, answer, hlinks, hlink, -, hcoming, ho⟩ :=
    m.detach_cases ns device restore
  · rw [ho, moved, he] at h
    cases h
  · rw [ho]
    exact ⟨link, up, hcoming, carried_out hlinks hlink rfl rfl⟩

end

/-- **Requests carry a link or leave the tables.** A request carries a link exactly if nothing keeps
it from that; it is then a success or an error after which the device has moved. After any other
error all tables are what they were. An attach carries the link of the host to its name in the
namespace, with its configuration and the addresses that it got. A detach carries the link of the
namespace to its outgoing name on the host, without addresses. -/
theorem requests_carry_or_leave (m : Memory) :
    (∀ device target config addresses,
      let o := m.attach device target config addresses
      (moved o.1 = true ↔ m.MayEnter device target) ∧
      (moved o.1 = false → o.2.host = m.host ∧ o.2.namespaces = m.namespaces) ∧
      (moved o.1 = true → ∃ link applied up,
        Landing target (config.name.getD device).text
          (config.hardwareAddr.getD link.hardwareAddr) addresses o.1 applied up ∧
        Carried m o.2 ⟨.host, device.text⟩ ⟨.inside target.key, (config.name.getD device).text⟩ link
          { link with
            up := up
            mtu := (config.mtu.filter (0 < ·)).getD link.mtu
            hardwareAddr := config.hardwareAddr.getD link.hardwareAddr
            addresses := applied })) ∧
    ∀ source device restore,
      let o := m.detach source device restore
      (moved o.1 = true ↔ m.MayLeave source device) ∧
      (moved o.1 = false → o.2.host = m.host ∧ o.2.namespaces = m.namespaces) ∧
      (moved o.1 = true → ∃ link up name,
        Outgoing link device restore name ∧ Homecoming name o.1 up ∧
        Carried m o.2 ⟨.inside source.key, device.text⟩ ⟨.host, name⟩ link
          { link with up := up, addresses := [] }) := by
  refine ⟨fun device target config addresses => ?attach, fun source device restore => ?detach⟩
  case attach =>
    refine ⟨m.moved_attach_iff device target config addresses, fun h => ?_, carried_attach⟩
    rw [attach_of_not_moved h]
    exact ⟨rfl, rfl⟩
  case detach =>
    refine ⟨m.moved_detach_iff device source restore, fun h => ?_, fun h => ?_⟩
    · rw [detach_of_not_moved h]
      exact ⟨rfl, rfl⟩
    · obtain ⟨link, up, hcoming, hcarried⟩ := carried_detach h
      exact ⟨link, up, _, outgoing_outgoingName link device restore, hcoming, hcarried⟩

end Memory

end NetRelocation
