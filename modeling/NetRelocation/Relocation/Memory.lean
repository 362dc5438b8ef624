import NetRelocation.Coordination.Program

/-!
# Moving devices in memory

Tables of links stand for the host and for each known namespace, and moving a device takes its link
from one table to another. Single steps can be made to fail for a device (`FailPoint`). A refused
move changes no table.
-/

namespace NetRelocation

structure MemoryLink where
  up : Bool
  mtu : UInt32
  hardwareAddr : HardwareAddr
  aliasName : Option String
  addresses : List Network
  deriving DecidableEq

def MemoryLink.write (link : MemoryLink) : Json.Value :=
  .object
    [("up", .bool link.up), ("mtu", Json.Codec.uint32.write link.mtu),
     ("hardware_addr", HardwareAddr.codec.write link.hardwareAddr),
     ("alias", (Json.Codec.option .string).write link.aliasName),
     ("addresses", (Json.Codec.list Network.codec).write link.addresses)]

/-- Where a relocation can be made to fail. -/
inductive FailPoint where
  /-- The move into a namespace is refused. -/
  | attach
  /-- The move back to the host is refused. -/
  | detach
  /-- The last of the wanted addresses is rejected after the move. -/
  | address
  /-- The device stays down at its destination. -/
  | enable
  deriving DecidableEq, Repr

/-- The links of a namespace by name. -/
abbrev LinkTable := SortedMap String MemoryLink

/-- The tables of the host and of the known namespaces. -/
structure Memory where
  host : LinkTable
  namespaces : Table NamespaceKey LinkTable
  /-- The steps that fail, each for a device. -/
  failures : List (FailPoint × String)
  /-- The number of relocations asked for. -/
  calls : Nat

namespace Memory

def empty : Memory := ⟨.empty, .empty, [], 0⟩

/-! ## Setting up -/

/-- The address of the link that is added as the one with this number. -/
def numberedAddress (n : Nat) : HardwareAddr := ⟨[0x02, 0, 0, 0, 0, UInt8.ofNat (min n 255)]⟩

/-- Add a link to the host that is up. -/
def addHostDevice (m : Memory) (name : String) : Memory :=
  { m with
    host := m.host.insert name ⟨true, 1500, numberedAddress (m.host.size + 1), none, []⟩ }

/-- Add so many links to the host, named by a word and a number that counts from zero. -/
def addHostDevices (m : Memory) (word : String) (count : Nat) : Memory :=
  (List.range count).foldl (fun m i => m.addHostDevice (word ++ Text.Numeral.decimal i)) m

/-- Make a namespace known. -/
def addNamespace (m : Memory) (ns : NamespaceRef) : Memory :=
  if m.namespaces.contains ns.key then m
  else { m with namespaces := m.namespaces.insert ns.key .empty }

/-- Make a step fail for a device from now on. -/
def fail (m : Memory) (point : FailPoint) (device : String) : Memory :=
  { m with failures := (point, device) :: m.failures }

/-- Give a link of the host an alias. -/
def setAlias (m : Memory) (name aliasName : String) : Memory :=
  match m.host.get? name with
  | some link => { m with host := m.host.insert name { link with aliasName := some aliasName } }
  | none => m

def fails (m : Memory) (point : FailPoint) (device : String) : Bool :=
  decide ((point, device) ∈ m.failures)

def namespaceLink (m : Memory) (ns : NamespaceRef) (name : String) : Option MemoryLink :=
  (m.namespaces.get? ns.key).bind (·.get? name)

/-! ## Moving -/

def refused (operation : Operation) : Error := .rejected operation "operation not permitted (mock)"

/-- The link as it arrives in a namespace. -/
def configure (link : MemoryLink) (config : LinkConfig) (addresses : List Network) (up : Bool) :
    MemoryLink :=
  { link with
    up := up
    mtu := (config.mtu.filter (0 < ·)).getD link.mtu
    hardwareAddr := config.hardwareAddr.getD link.hardwareAddr
    addresses := addresses }

/-- Move a device into a namespace. -/
def attach (device : DeviceName) (target : NamespaceRef) (config : LinkConfig)
    (addresses : List Network) (m : Memory) : Except Error NetworkDeviceData × Memory :=
  let m := { m with calls := m.calls + 1 }
  match m.host.get? device.text, m.namespaces.get? target.key with
  | none, _ => (.error (.notFound .device device.text), m)
  | some _, none => (.error (.notFound .namespaceFile target.display), m)
  | some link, some links =>
    if m.fails .attach device.text then (.error (refused (.move device.text target)), m)
    else
      let name := (config.name.getD device).text
      let rejected := if m.fails .address device.text then addresses.getLast? else none
      let applied := if rejected.isSome then addresses.dropLast else addresses
      let down := m.fails .enable device.text
      let link := configure link config applied (!down && rejected.isNone)
      let m :=
        { m with
          host := m.host.erase device.text
          namespaces := m.namespaces.insert target.key (links.insert name link) }
      match rejected with
      | some net =>
        (.error (.addressAssignment net.display target.display "file exists (mock)"), m)
      | none =>
        if down then
          (.error (.enableFailed name target.display "device or resource busy (mock)"), m)
        else (.ok ⟨name, link.hardwareAddr.display, applied.map (·.host)⟩, m)

/-- The name of a link that comes back to the host. -/
def outgoingName (link : MemoryLink) (device : DeviceName) (restore : Option DeviceName) : String :=
  match restore with
  | some name => name.text
  | none => (link.aliasName.filter (· ≠ "")).getD device.text

/-- Move a device back to the host. -/
def detach (source : NamespaceRef) (device : DeviceName) (restore : Option DeviceName)
    (m : Memory) : Except Error Unit × Memory :=
  let m := { m with calls := m.calls + 1 }
  match m.namespaces.get? source.key with
  | none => (.error (.notFound .namespaceFile source.display), m)
  | some links =>
    match links.get? device.text with
    | none => (.error (.notFound .device device.text), m)
    | some link =>
      if m.fails .detach device.text then (.error (refused (.takeOut device.text source)), m)
      else
        let name := outgoingName link device restore
        let down := m.fails .enable name
        let link := { link with addresses := [], up := !down }
        let m :=
          { m with
            host := m.host.insert name link
            namespaces := m.namespaces.insert source.key (links.erase device.text) }
        if down then (.error (.enableFailed name "host" "device or resource busy (mock)"), m)
        else (.ok (), m)

/-- An answer without notices. -/
def silent {α : Type} (r : Except Error α × Memory) : Answer α Memory := ⟨r.1, [], r.2⟩

/-- The tables as something that moves devices. -/
def relocator : Relocator Memory where
  attach device target config addresses m := silent (m.attach device target config addresses)
  detach source device restore m := silent (m.detach source device restore)

/-- The tables are shown without their contents. -/
def summary : String := "MockRelocator \x7b .. \x7d"

end Memory

end NetRelocation
