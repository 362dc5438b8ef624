import NetRelocation.Config
import NetRelocation.Device.Allocated
import NetRelocation.Device.Basic

/-!
# Devices on offer

Which devices of the host may be granted to workloads, and the form in which they are offered.
-/

namespace NetRelocation

/-- The devices that may be offered. -/
structure DevicePolicy where
  /-- Names that start with one of these are not offered. -/
  exclusions : List String
  deriving DecidableEq, Repr

/-- A device as it is offered. -/
structure PublishedDevice where
  name : String
  attributes : SortedMap String String
  deriving DecidableEq

namespace PublishedDevice

/-- The offer of a device: its name and its hardware address, empty if it has none. -/
def ofDevice (device : Device) : PublishedDevice where
  name := device.name
  attributes := .ofList
    [(Attribute.interfaceName, device.name),
     (Attribute.macAddress, (device.hardwareAddr.map (·.display)).getD "")]

def write (device : PublishedDevice) : Json.Value :=
  .object
    [("name", .string device.name),
     ("attributes", (Json.Codec.map .string).write device.attributes)]

end PublishedDevice

namespace DevicePolicy

def ofConfig (config : DriverConfig) : DevicePolicy := ⟨config.exclusions⟩

/-- The policy without a configuration. -/
def standard : DevicePolicy := ofConfig .standard

/-- Whether a device may be offered: it is up, no loopback, and its name is not excluded. -/
def allows (policy : DevicePolicy) (device : Device) : Bool :=
  device.kind != .loopback && device.up &&
    !policy.exclusions.any fun lead => Text.startsWith lead device.name

/-- The devices that may be offered. -/
def keep (policy : DevicePolicy) (devices : List Device) : List Device :=
  devices.filter policy.allows

def offers (policy : DevicePolicy) (devices : List Device) : List PublishedDevice :=
  (policy.keep devices).map .ofDevice

end DevicePolicy

end NetRelocation
