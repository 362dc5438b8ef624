import NetRelocation.Device.Name
import NetRelocation.Error

/-!
# Reports on a workload that ends

Each device that is taken back has an outcome. A device is returned when it is on the host again,
whether it could be brought up or not.
-/

namespace NetRelocation

/-- What came of taking one device back. -/
structure DetachOutcome where
  /-- The name on the host. -/
  device : DeviceName
  result : Except Error Unit

namespace DetachOutcome

/-- Whether the device is back on the host and up. -/
def isOk (outcome : DetachOutcome) : Bool :=
  match outcome.result with
  | .ok _ => true
  | .error _ => false

/-- Whether the device is back on the host. -/
def returned (outcome : DetachOutcome) : Bool :=
  match outcome.result with
  | .ok _ => true
  | .error e => e.deviceMoved

end DetachOutcome

/-- What came of taking the devices of a workload back. -/
structure DetachReport where
  /-- One outcome per attached device, in the order of the artifact. -/
  outcomes : List DetachOutcome

namespace DetachReport

/-- Nothing was taken back. -/
def empty : DetachReport := ⟨[]⟩

/-- Whether every device is back and up. -/
def isComplete (report : DetachReport) : Bool := report.outcomes.all (·.isOk)

/-- The outcomes of devices that are still inside the namespace. -/
def failures (report : DetachReport) : List DetachOutcome := report.outcomes.filter (!·.returned)

/-- The outcomes of devices that are back and down. -/
def restoredDown (report : DetachReport) : List DetachOutcome :=
  report.outcomes.filter fun o => !o.isOk && o.returned

/-- The number of devices that are back. -/
def detached (report : DetachReport) : Nat := (report.outcomes.filter (·.returned)).length

end DetachReport

end NetRelocation
