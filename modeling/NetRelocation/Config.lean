import NetRelocation.Invalid
import NetRelocation.Json.Codec

/-!
# Configuration

The settings of the driver. In a file every key may be missing and then has its default; a value is
usable when `DriverConfig.check` finds no fault.
-/

namespace NetRelocation

/-- How often and how fast a failed subscription is started again. -/
structure RestartPolicy where
  /-- So many failures in a row end the subscription. -/
  maxAttempts : UInt32
  delaySecs : UInt64
  /-- A run longer than this is no failure. -/
  stabilitySecs : UInt64
  deriving DecidableEq, Repr

namespace RestartPolicy

/-- Ten attempts, five seconds apart; five minutes count as stable. -/
def standard : RestartPolicy := ⟨10, 5, 300⟩

/-- The time between two runs in milliseconds. -/
def delayMs (policy : RestartPolicy) : Nat := policy.delaySecs.toNat * 1000

/-- The time in milliseconds above which a run is stable. -/
def stabilityMs (policy : RestartPolicy) : Nat := policy.stabilitySecs.toNat * 1000

def fields : Json.Fields [UInt32, UInt64, UInt64] :=
  .cons "max_attempts" .uint32 (.defaulted standard.maxAttempts)
  (.cons "delay_secs" .uint64 (.defaulted standard.delaySecs)
  (.cons "stability_threshold_secs" .uint64 (.defaulted standard.stabilitySecs) .nil))

/-- Policies are written as records. -/
def codec : Json.Codec RestartPolicy :=
  .record "struct RestartPolicy" fields
    (fun p => (p.maxAttempts, p.delaySecs, p.stabilitySecs, ()))
    (fun (maxAttempts, delaySecs, stabilitySecs, _) => ⟨maxAttempts, delaySecs, stabilitySecs⟩)

end RestartPolicy

/-- The settings of the driver. -/
structure DriverConfig where
  driverName : String
  /-- The name of the machine, if it is not to be asked for. -/
  nodeName : Option String
  publishIntervalSecs : UInt64
  /-- Devices whose names start with one of these are never offered. -/
  exclusions : List String
  restart : RestartPolicy
  /-- Where events are read from. -/
  eventsPath : Option String
  deriving DecidableEq, Repr

namespace DriverConfig

/-- The settings without a file. -/
def standard : DriverConfig where
  driverName := "hostdevice.hostnet.dev"
  nodeName := none
  publishIntervalSecs := 5
  exclusions := ["veth", "docker", "cni"]
  restart := .standard
  eventsPath := none

def fields :
    Json.Fields [String, Option String, UInt64, List String, RestartPolicy, Option String] :=
  .cons "driver_name" .string (.defaulted standard.driverName)
  (.cons "node_name" (.option .string) (.defaulted standard.nodeName)
  (.cons "publish_interval_secs" .uint64 (.defaulted standard.publishIntervalSecs)
  (.cons "excluded_prefixes" (.list .string) (.defaulted standard.exclusions)
  (.cons "restart" RestartPolicy.codec (.defaulted standard.restart)
  (.cons "events_path" (.option .path) (.defaulted standard.eventsPath) .nil)))))

/-- Configurations are written as records. -/
def codec : Json.Codec DriverConfig :=
  .record "struct DriverConfig" fields
    (fun c => (c.driverName, c.nodeName, c.publishIntervalSecs, c.exclusions, c.restart,
      c.eventsPath, ()))
    (fun (driverName, nodeName, publishIntervalSecs, exclusions, restart, eventsPath, _) =>
      ⟨driverName, nodeName, publishIntervalSecs, exclusions, restart, eventsPath⟩)

/-- Decode the text of a configuration file. -/
def ofText (path text : String) : Except Invalid DriverConfig :=
  match codec.decode text with
  | .ok config => .ok config
  | .error fault => .error (.file path fault)

/-- The first thing that makes a configuration unusable. -/
def fault? (config : DriverConfig) : Option Invalid :=
  if Text.isBlankText config.driverName then some .emptyDriverName
  else if config.nodeName.any Text.isBlankText then some .emptyNodeName
  else if config.publishIntervalSecs = 0 then some .zeroPublishInterval
  else if config.restart.maxAttempts = 0 then some .zeroAttempts
  else if config.exclusions.any (· = "") then some .emptyExclusion
  else none

/-- Refuse a configuration that is unusable. -/
def check (config : DriverConfig) : Except Invalid Unit :=
  match config.fault? with
  | some cause => .error cause
  | none => .ok ()

end DriverConfig

end NetRelocation
