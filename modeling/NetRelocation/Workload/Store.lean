import NetRelocation.Collection.Table
import NetRelocation.Device.Prepared

/-!
# The record of workloads

What every workload was granted, what was prepared for it, where it stands in its life, and which of
its devices are inside its namespace. Each operation is one step: it sees the whole record and
leaves a whole record. The record of a workload starts with a grant and ends when it is purged.
-/

namespace NetRelocation

/-- Where a workload stands. -/
inductive Phase where
  /-- There is no record. -/
  | unknown
  /-- Devices are granted and not prepared. -/
  | allocated
  /-- Devices are prepared and wait for the namespace. -/
  | prepared
  /-- Devices are inside the namespace. -/
  | networkAttached
  /-- Devices were given back. -/
  | networkDetached
  deriving DecidableEq, Repr

def Phase.word : Phase → String
  | unknown => "unknown"
  | allocated => "allocated"
  | prepared => "prepared"
  | networkAttached => "network_attached"
  | networkDetached => "network_detached"

/-- The record of one workload. -/
structure Entry where
  allocation : List AllocatedDevice
  prepared : Option PreparedArtifact
  phase : Phase
  /-- Host names of the devices inside the namespace. -/
  attached : SortedSet DeviceName
  deriving DecidableEq

namespace Entry

def ofGrant (devices : List AllocatedDevice) : Entry := ⟨devices, none, .allocated, .empty⟩

/-- Take over a grant together with its artifact. Attached devices that the artifact has are
kept. -/
def prepare (entry : Entry) (devices : List AllocatedDevice) (artifact : PreparedArtifact) :
    Entry :=
  { allocation := devices
    prepared := some artifact
    phase :=
      match entry.phase with
      | .unknown => .prepared
      | .allocated => .prepared
      | phase => phase
    attached := entry.attached.filter (· ∈ artifact.hostNames) }

/-- The attached devices that an artifact lacks, in order of their names. -/
def lost (entry : Entry) (artifact : PreparedArtifact) : List DeviceName :=
  (entry.attached.filter (· ∉ artifact.hostNames)).toList

/-- Drop the artifact. -/
def unprepare (entry : Entry) : Entry :=
  { entry with
    prepared := none
    phase := if entry.phase = .prepared then .allocated else entry.phase }

/-- Note that a device is inside the namespace. -/
def attach (entry : Entry) (device : DeviceName) : Entry :=
  { entry with attached := entry.attached.insert device, phase := .networkAttached }

/-- Note that a device is back on the host. -/
def detach (entry : Entry) (device : DeviceName) : Entry :=
  { entry with attached := entry.attached.erase device }

/-- Note that the namespace is gone. -/
def leave (entry : Entry) : Entry := { entry with phase := .networkDetached }

def write (entry : Entry) : Json.Value :=
  .object
    [("allocation", (Json.Codec.list AllocatedDevice.codec).write entry.allocation),
     ("prepared", (Json.Codec.option PreparedArtifact.codec).write entry.prepared),
     ("phase", .string entry.phase.word),
     ("attached", (Json.Codec.list DeviceName.codec).write entry.attached.toList)]

end Entry

/-- The records of all workloads. -/
structure Store where
  entries : Table WorkloadId Entry
  deriving DecidableEq

namespace Store

def empty : Store := ⟨.empty⟩

def read (store : Store) (w : WorkloadId) : Option Entry := store.entries.get? w

def put (store : Store) (w : WorkloadId) (entry : Entry) : Store := ⟨store.entries.insert w entry⟩

/-- Change the record of a workload, if there is one. -/
def modify (store : Store) (w : WorkloadId) (f : Entry → Entry) : Store :=
  ⟨store.entries.modify w f⟩

/-- Record a grant; a repeated one replaces the list of devices. -/
def recordAllocation (store : Store) (w : WorkloadId) (devices : List AllocatedDevice) : Store :=
  match store.read w with
  | some entry => store.put w { entry with allocation := devices }
  | none => store.put w (.ofGrant devices)

/-- The record that preparing a workload starts from. -/
def entryOrNew (store : Store) (w : WorkloadId) : Entry := (store.read w).getD (.ofGrant [])

/-- Record a grant with its artifact. -/
def recordPrepared (store : Store) (w : WorkloadId) (devices : List AllocatedDevice)
    (artifact : PreparedArtifact) : Store :=
  store.put w ((store.entryOrNew w).prepare devices artifact)

/-- The attached devices of a workload that an artifact lacks, in order of their names. -/
def lost (store : Store) (w : WorkloadId) (artifact : PreparedArtifact) : List DeviceName :=
  (store.entryOrNew w).lost artifact

/-- Drop the artifact of a workload. -/
def clearPrepared (store : Store) (w : WorkloadId) : Store := store.modify w Entry.unprepare

/-- Whether a workload has an artifact. -/
def isPrepared (store : Store) (w : WorkloadId) : Bool :=
  (store.read w).any (·.prepared.isSome)

/-- Note that a device is inside the namespace of a workload. -/
def markAttached (store : Store) (w : WorkloadId) (device : DeviceName) : Store :=
  store.modify w (·.attach device)

/-- Note that a device of a workload is back on the host. -/
def markDetached (store : Store) (w : WorkloadId) (device : DeviceName) : Store :=
  store.modify w (·.detach device)

/-- Note that the namespace of a workload is gone. -/
def markNetworkDetached (store : Store) (w : WorkloadId) : Store := store.modify w Entry.leave

/-- Forget a workload. -/
def purge (store : Store) (w : WorkloadId) : Store := ⟨store.entries.erase w⟩

def contains (store : Store) (w : WorkloadId) : Bool := (store.read w).isSome

/-- Where a workload stands. -/
def phase (store : Store) (w : WorkloadId) : Phase :=
  match store.read w with
  | some entry => entry.phase
  | none => .unknown

/-- The number of workloads with a record. -/
def size (store : Store) : Nat := store.entries.size

/-! ## Reading after an operation -/

@[simp] theorem read_empty (w : WorkloadId) : empty.read w = none := rfl

@[simp] theorem read_put_self (store : Store) (w : WorkloadId) (entry : Entry) :
    (store.put w entry).read w = some entry :=
  store.entries.get?_insert_self w entry

theorem read_put_ne (store : Store) {w v : WorkloadId} (entry : Entry) (h : v ≠ w) :
    (store.put w entry).read v = store.read v :=
  store.entries.get?_insert_ne entry h

@[simp] theorem read_modify_self (store : Store) (w : WorkloadId) (f : Entry → Entry) :
    (store.modify w f).read w = (store.read w).map f :=
  store.entries.get?_modify_self w f

theorem read_modify_ne (store : Store) {w v : WorkloadId} (f : Entry → Entry) (h : v ≠ w) :
    (store.modify w f).read v = store.read v :=
  store.entries.get?_modify_ne f h

@[simp] theorem modify_id (store : Store) (w : WorkloadId) :
    store.modify w (fun entry => entry) = store := by
  simp [modify]

theorem modify_modify (store : Store) (w : WorkloadId) (f g : Entry → Entry) :
    (store.modify w f).modify w g = store.modify w fun entry => g (f entry) := by
  simp [modify, Table.modify_modify]

@[simp] theorem read_purge_self (store : Store) (w : WorkloadId) : (store.purge w).read w = none :=
  store.entries.get?_erase_self w

theorem read_purge_ne (store : Store) {w v : WorkloadId} (h : v ≠ w) :
    (store.purge w).read v = store.read v :=
  store.entries.get?_erase_ne h

end Store

end NetRelocation
