import NetRelocation.Device.Allocated
import NetRelocation.Namespace.Ref
import NetRelocation.Workload.Id

/-!
# Events

What the sources of grants and of the life of workloads report, and its JSON form: an object whose
member `type` names the kind of event.
-/

namespace NetRelocation

/-- Something that happened to a workload. -/
inductive DriverEvent where
  /-- Devices were granted. -/
  | allocated (workload : WorkloadId) (devices : List AllocatedDevice)
  /-- The grant was taken back. -/
  | released (workload : WorkloadId)
  /-- The network namespace exists. -/
  | networkReady (workload : WorkloadId) (ns : Option NamespaceRef)
  /-- The workload is about to end. -/
  | stopping (workload : WorkloadId) (ns : Option NamespaceRef)
  /-- The workload is gone. -/
  | removed (workload : WorkloadId)
  deriving DecidableEq

namespace DriverEvent

def workload : DriverEvent → WorkloadId
  | allocated w _ => w
  | released w => w
  | networkReady w _ => w
  | stopping w _ => w
  | removed w => w

/-- The word for the kind of event. -/
def name : DriverEvent → String
  | allocated .. => "allocated"
  | released _ => "released"
  | networkReady .. => "network_ready"
  | stopping .. => "stopping"
  | removed _ => "removed"

/-- Whether the event is about the life of the workload and not about its grants. -/
def isLifecycle : DriverEvent → Bool
  | allocated .. => false
  | released _ => false
  | _ => true

def display : DriverEvent → String
  | allocated w devices =>
    "Workload " ++ w.text ++ " allocated " ++ Text.Numeral.decimal devices.length ++ " device(s)"
  | released w => "Workload " ++ w.text ++ " released"
  | networkReady w _ => "Workload " ++ w.text ++ " network ready"
  | stopping w _ => "Workload " ++ w.text ++ " stopping"
  | removed w => "Workload " ++ w.text ++ " removed"

/-! ## The JSON form -/

/-- The member that names the kind of event. -/
def tag : String := "type"

def allocatedFields : Json.Fields [WorkloadId, List AllocatedDevice] :=
  .cons "workload" WorkloadId.codec .required
  (.cons "devices" (.list AllocatedDevice.codec) .required .nil)

/-- The fields of an event that names the workload alone. -/
def workloadFields : Json.Fields [WorkloadId] := .cons "workload" WorkloadId.codec .required .nil

def namespaceFields : Json.Fields [WorkloadId, Option NamespaceRef] :=
  .cons "workload" WorkloadId.codec .required
  (.cons "namespace" (.option NamespaceRef.codec) (.defaulted none) .nil)

/-- The members of an event other than its tag. -/
def members : DriverEvent → List (String × Json.Value)
  | allocated w devices => allocatedFields.write (w, devices, ())
  | released w => workloadFields.write (w, ())
  | networkReady w ns => namespaceFields.write (w, ns, ())
  | stopping w ns => namespaceFields.write (w, ns, ())
  | removed w => workloadFields.write (w, ())

/-- The tree of an event; the tag comes first. -/
def write (event : DriverEvent) : Json.Value :=
  .object ((tag, .string event.name) :: event.members)

def kinds : List (Json.Tagged DriverEvent) :=
  [.record "allocated" "struct variant DriverEvent::Allocated" allocatedFields
    fun (w, devices, _) => allocated w devices,
   .record "released" "struct variant DriverEvent::Released" workloadFields
    fun (w, _) => released w,
   .record "network_ready" "struct variant DriverEvent::NetworkReady" namespaceFields
    fun (w, ns, _) => networkReady w ns,
   .record "stopping" "struct variant DriverEvent::Stopping" namespaceFields
    fun (w, ns, _) => stopping w ns,
   .record "removed" "struct variant DriverEvent::Removed" workloadFields
    fun (w, _) => removed w]

/-- Read an event from a text. -/
def parse (s : String) : Except Json.Fault DriverEvent :=
  match Json.readTagged tag "internally tagged enum DriverEvent" kinds Json.maxDepth s.toList with
  | .error e => .error e
  | .ok r => Json.finish r

def encode (event : DriverEvent) : String := event.write.compact

end DriverEvent

end NetRelocation
