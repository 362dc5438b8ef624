import NetRelocation.Error
import NetRelocation.Event
import NetRelocation.Device.Name

/-!
# Notices

What the program reports while it works. A notice says what happened; its `Notice.line` is the
line of the log, a level, a fixed message, and fields in order.
-/

namespace NetRelocation

/-- How grave a notice is. -/
inductive Level where
  | info
  | warn
  | error
  deriving DecidableEq, Repr

def Level.word : Level → String
  | info => "INFO"
  | warn => "WARN"
  | error => "ERROR"

structure LogLine where
  level : Level
  message : String
  fields : List (String × String)
  deriving DecidableEq, Repr

/-- Something worth reporting. -/
inductive Notice where
  /-- An event arrived. -/
  | arrived (event : DriverEvent)
  | prepareFailed (workload : WorkloadId) (error : Error)
  | forgotten (workload : WorkloadId) (device : DeviceName)
  | prepared (workload : WorkloadId) (devices : Nat)
  | unprepared (workload : WorkloadId)
  | movingIn (workload : WorkloadId) (device interface : DeviceName) (ns : NamespaceRef)
  | attachFailed (workload : WorkloadId) (device : DeviceName) (error : Error)
  | stoppingNowhere (workload : WorkloadId)
  | movingOut (workload : WorkloadId) (device restore : DeviceName)
  | detachFailed (workload : WorkloadId) (device : DeviceName) (returned : Bool) (error : Error)
  | notReturned (workload : WorkloadId) (failed detached : Nat)
  | purged (workload : WorkloadId)
  | notEntered (file : String) (number : Int)
  | movedDeviceMissing (device : DeviceName) (ns : NamespaceRef) (error : Error)
  | moveRejected (device : DeviceName) (ns : NamespaceRef) (reason : String)
  | notBroughtUp (device place : String) (error : Error)
  | attached (device : DeviceName) (interface : String) (ns : NamespaceRef) (addresses : Nat)
  | detached (device : DeviceName) (restored : String) (ns : NamespaceRef)
  | subscriptionEnded (source : String)
  | subscriptionFailed (source : String) (error : Error)
  | subscriptionStable (source : String) (thresholdSecs : UInt64)
  | subscriptionGivenUp (source : String) (attempts : Nat)
  | subscriptionRestarting (source : String) (attempt : Nat) (maxAttempts : UInt32)
  | supervisionStopped (source : String)
  | feedOpened (path : String) (follow : Bool) (offset : Nat)
  | feedShrank (path : String) (offset length : Nat)
  | feedTruncated (path : String)
  | malformedEvent (path : String) (fault : Json.Fault)
  | eventFailed (event : DriverEvent) (error : Error)
  | publicationChanged (pool : String) (names : List String)
  | publicationStarted (pool : String) (intervalSecs : Nat)
  | publicationFailed (pool : String) (error : Error)
  | publicationStopped (pool : String)
  | attaching (device : DeviceName) (ns : NamespaceRef) (addresses : Nat)
  | detaching (device : DeviceName) (ns : NamespaceRef)
  | starting (driver node : String) (publishIntervalSecs : UInt64)
  | noFeed
  | signalReceived
  | driverStopped (workloads : Nat)

namespace Notice

/-- Numbers are written in decimal. -/
def count (n : Nat) : String := Text.Numeral.decimal n

/-- Truth values are written as words. -/
def flag (b : Bool) : String := if b then "true" else "false"

/-- The namespace of an event as the log shows it. -/
def shownNamespace (ns : Option NamespaceRef) : String :=
  Text.quotedOption (ns.map (·.display))

def eventLine (event : DriverEvent) : LogLine :=
  let w := ("workload", event.workload.text)
  let e := ("event", event.name)
  match event with
  | .allocated _ devices =>
    ⟨.info, "Devices allocated", [w, ("devices", count devices.length), e]⟩
  | .released _ => ⟨.info, "Allocation released", [w, e]⟩
  | .networkReady _ ns =>
    ⟨.info, "Workload network ready", [w, ("namespace", shownNamespace ns), e]⟩
  | .stopping _ ns => ⟨.info, "Workload stopping", [w, ("namespace", shownNamespace ns), e]⟩
  | .removed _ => ⟨.info, "Workload removed", [w, e]⟩

def line : Notice → LogLine
  | arrived event => eventLine event
  | prepareFailed w error =>
    ⟨.warn, "Prepare failed", [("workload", w.text), ("error", error.message)]⟩
  | forgotten w device =>
    ⟨.warn, "Attached device is no longer allocated, forgetting it",
      [("workload", w.text), ("device", device.text)]⟩
  | prepared w devices =>
    ⟨.info, "Workload prepared", [("workload", w.text), ("devices", count devices)]⟩
  | unprepared w => ⟨.info, "Workload unprepared", [("workload", w.text)]⟩
  | movingIn w device interface ns =>
    ⟨.info, "Moving device into workload",
      [("workload", w.text), ("device", device.text), ("interface", interface.text),
        ("namespace", ns.display)]⟩
  | attachFailed w device error =>
    ⟨.error, "Attach failed",
      [("workload", w.text), ("device", device.text), ("error", error.message)]⟩
  | stoppingNowhere w =>
    ⟨.warn, "Stopping workload has no network namespace", [("workload", w.text)]⟩
  | movingOut w device restore =>
    ⟨.info, "Moving device back to host",
      [("workload", w.text), ("device", device.text), ("restore", restore.text)]⟩
  | detachFailed w device returned error =>
    ⟨.error, "Failed to detach device",
      [("workload", w.text), ("device", device.text), ("returned", flag returned),
        ("error", error.message)]⟩
  | notReturned w failed back =>
    ⟨.warn, "Some devices were not returned to the host",
      [("workload", w.text), ("failed", count failed), ("detached", count back)]⟩
  | purged w => ⟨.info, "Workload purged", [("workload", w.text)]⟩
  | notEntered file number =>
    ⟨.error, "Failed to enter namespace", [("path", file), ("error", Errno.named number)]⟩
  | movedDeviceMissing device ns error =>
    ⟨.error, "Moved device not found",
      [("device", device.text), ("namespace", ns.display), ("error", error.message)]⟩
  | moveRejected device ns reason =>
    ⟨.error, "Link modify rejected",
      [("device", device.text), ("namespace", ns.display), ("error", reason)]⟩
  | notBroughtUp device place error =>
    ⟨.warn, "Device moved but could not be brought up",
      [("device", device), ("destination", place), ("error", error.message)]⟩
  | attached device interface ns addresses =>
    ⟨.info, "Device attached",
      [("device", device.text), ("interface", interface), ("namespace", ns.display),
        ("addresses", count addresses)]⟩
  | detached device restored ns =>
    ⟨.info, "Device detached",
      [("device", device.text), ("restored", restored), ("namespace", ns.display)]⟩
  | subscriptionEnded source => ⟨.warn, "Lifecycle subscription ended", [("source", source)]⟩
  | subscriptionFailed source error =>
    ⟨.error, "Lifecycle subscription failed", [("source", source), ("error", error.message)]⟩
  | subscriptionStable source thresholdSecs =>
    ⟨.info, "Subscription was stable, resetting retry counter",
      [("source", source), ("threshold_secs", count thresholdSecs.toNat)]⟩
  | subscriptionGivenUp source attempts =>
    ⟨.error, "Lifecycle subscription failed to restart",
      [("source", source), ("attempts", count attempts)]⟩
  | subscriptionRestarting source attempt maxAttempts =>
    ⟨.info, "Restarting lifecycle subscription",
      [("source", source), ("attempt", count attempt), ("max_attempts", count maxAttempts.toNat)]⟩
  | supervisionStopped source => ⟨.info, "Lifecycle supervision stopped", [("source", source)]⟩
  | feedOpened path follow offset =>
    ⟨.info, "Lifecycle feed opened",
      [("path", path), ("follow", flag follow), ("offset", count offset)]⟩
  | feedShrank path offset length =>
    ⟨.warn, "Lifecycle feed shrank, reading from the start",
      [("path", path), ("offset", count offset), ("len", count length)]⟩
  | feedTruncated path => ⟨.warn, "Lifecycle feed truncated", [("path", path)]⟩
  | malformedEvent path fault =>
    ⟨.warn, "Skipping malformed event", [("path", path), ("error", fault.message)]⟩
  | eventFailed event error =>
    ⟨.error, "Event handling failed",
      [("workload", event.workload.text), ("event", event.name), ("error", error.message)]⟩
  | publicationChanged pool names =>
    ⟨.info, "Published device set changed",
      [("pool", pool), ("devices", count names.length), ("names", Text.quotedList names)]⟩
  | publicationStarted pool intervalSecs =>
    ⟨.info, "Device publishing started", [("pool", pool), ("interval_secs", count intervalSecs)]⟩
  | publicationFailed pool error =>
    ⟨.error, "Failed to publish devices", [("pool", pool), ("error", error.message)]⟩
  | publicationStopped pool => ⟨.info, "Device publishing stopped", [("pool", pool)]⟩
  | attaching device ns addresses =>
    ⟨.info, "Attaching device",
      [("device", device.text), ("netns", ns.display), ("addresses", count addresses)]⟩
  | detaching device ns =>
    ⟨.info, "Detaching device", [("device", device.text), ("netns", ns.display)]⟩
  | starting driver node publishIntervalSecs =>
    ⟨.info, "Starting hostnet driver",
      [("driver", driver), ("node", node),
        ("publish_interval_secs", count publishIntervalSecs.toNat)]⟩
  | noFeed => ⟨.warn, "No lifecycle feed configured, only publishing devices", []⟩
  | signalReceived => ⟨.info, "Shutdown signal received", []⟩
  | driverStopped workloads =>
    ⟨.info, "Hostnet driver stopped", [("workloads", count workloads)]⟩

end Notice

end NetRelocation
