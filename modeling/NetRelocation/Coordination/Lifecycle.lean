import NetRelocation.Coordination.Program
import NetRelocation.Coordination.Report

/-!
# The life of workloads

Grants are prepared when they are made; the prepared devices are moved when the namespace of the
workload exists and taken back when the workload stops. Each operation reads the record of the
workload once and works from what it read.
-/

namespace NetRelocation.Lifecycle

open Program

/-- What was granted to one workload. -/
structure Claim where
  workload : WorkloadId
  devices : List AllocatedDevice

/-! ## Grants -/

/-- Prepare a grant. Nothing is recorded when that fails. -/
def prepare (w : WorkloadId) (devices : List AllocatedDevice) :
    Program (Except Error PreparedArtifact) :=
  match PreparedArtifact.ofAllocation devices with
  | .error e => note (.prepareFailed w e) (done (.error e))
  | .ok artifact =>
    store (.recordPrepared w devices artifact) fun lost => do
      ofNotices (lost.map (.forgotten w))
      note (.prepared w artifact.devices.length) (done (.ok artifact))

/-- Prepare several grants; one that fails does not keep the others from being prepared. -/
def prepareBatch : List Claim → Program (List (WorkloadId × Except Error PreparedArtifact))
  | [] => done []
  | claim :: claims => do
    let result ← prepare claim.workload claim.devices
    let results ← prepareBatch claims
    return (claim.workload, result) :: results

/-- Drop what was prepared for a workload. -/
def unprepare (w : WorkloadId) : Program Unit :=
  store (.clearPrepared w) fun
    | true => ofNotice (.unprepared w)
    | false => done ()

/-! ## Namespaces -/

/-- Move the devices that are not attached yet, up to the first that fails. A device that failed
after it was moved counts as attached. -/
def attachAll (w : WorkloadId) (ns : NamespaceRef) (attached : SortedSet DeviceName) :
    List PreparedDevice → Program (Except Error (List NetworkDeviceData))
  | [] => done (.ok [])
  | device :: devices =>
    if device.hostName ∈ attached then attachAll w ns attached devices
    else
      note (.movingIn w device.hostName device.namespaceName ns) <|
      relocate (.attach device.hostName ns device.config device.addresses) fun
        | .error e =>
          note (.attachFailed w device.hostName e) <|
          if e.deviceMoved then
            store (.markAttached w device.hostName) fun _ => done (.error e)
          else done (.error e)
        | .ok data =>
          store (.markAttached w device.hostName) fun _ => do
            let result ← attachAll w ns attached devices
            return result.map (data :: ·)

/-- Move the devices of a workload whose namespace exists. Nothing is done for a workload without a
record. -/
def networkReady (w : WorkloadId) (ns : Option NamespaceRef) :
    Program (Except Error (List NetworkDeviceData)) :=
  match ns with
  | none => done (.error (.precondition (.noNamespace w)))
  | some ns =>
    store (.read w) fun
      | none => done (.ok [])
      | some entry =>
        match entry.prepared with
        | none => done (.error (.precondition (.notPrepared w)))
        | some artifact => attachAll w ns entry.attached artifact.devices

/-- Take back the devices that are attached, whatever comes of the others. -/
def detachAll (w : WorkloadId) (ns : NamespaceRef) (attached : SortedSet DeviceName) :
    List PreparedDevice → Program (List DetachOutcome)
  | [] => done []
  | device :: devices =>
    if device.hostName ∈ attached then
      note (.movingOut w device.namespaceName device.hostName) <|
      relocate (.detach ns device.namespaceName (some device.hostName)) fun result => do
        let outcome : DetachOutcome := ⟨device.hostName, result⟩
        if outcome.returned then ofAction (.markDetached w device.hostName)
        match outcome.result with
        | .ok _ => done ()
        | .error e => ofNotice (.detachFailed w device.hostName outcome.returned e)
        let outcomes ← detachAll w ns attached devices
        return outcome :: outcomes
    else detachAll w ns attached devices

/-- Take back the devices of a workload that stops. -/
def stopping (w : WorkloadId) (ns : Option NamespaceRef) : Program DetachReport :=
  store (.read w) fun
    | none => done .empty
    | some entry =>
      match entry.prepared, ns with
      | none, _ => done .empty
      | some _, none => note (.stoppingNowhere w) (done .empty)
      | some artifact, some ns => do
        let outcomes ← detachAll w ns entry.attached artifact.devices
        store (.markNetworkDetached w) fun _ => done ⟨outcomes⟩

/-- Forget a workload. -/
def removed (w : WorkloadId) : Program Unit :=
  store (.purge w) fun
    | true => ofNotice (.purged w)
    | false => done ()

/-! ## Events -/

/-- Do what an event asks for. -/
def respond : DriverEvent → Program (Except Error Unit)
  | .allocated w devices => return (← prepare w devices).map fun _ => ()
  | .released w => do
    unprepare w
    return .ok ()
  | .networkReady w ns => return (← networkReady w ns).map fun _ => ()
  | .stopping w ns => do
    let report ← stopping w ns
    if !report.isComplete then
      ofNotice (.notReturned w report.failures.length report.detached)
    return .ok ()
  | .removed w => do
    removed w
    return .ok ()

/-- Report an event and do what it asks for. Only a grant that cannot be prepared and a device that
cannot be moved make it fail. -/
def handle (event : DriverEvent) : Program (Except Error Unit) :=
  note (.arrived event) (respond event)

/-- A coordinator is shown by the number of workloads with a record. -/
def summary (store : Store) : String :=
  "Coordinator \x7b workloads: " ++ Text.Numeral.decimal store.size ++ ", .. \x7d"

end NetRelocation.Lifecycle
