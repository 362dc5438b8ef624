import NetRelocation.Device.Name

/-!
# Granted devices

A device granted to a workload carries attributes as texts, of which a few keys have a meaning
(`Attribute`).
-/

namespace NetRelocation

namespace Attribute

/-- The name of the interface inside its namespace. -/
def interfaceName : String := "interface-name"

def mtu : String := "mtu"

def hardwareAddress : String := "hardware-address"

/-- The addresses to be assigned, with commas between them. -/
def addresses : String := "addresses"

/-- The hardware address that is offered. -/
def macAddress : String := "mac-address"

end Attribute

/-- A device granted to a workload. -/
structure AllocatedDevice where
  name : DeviceName
  /-- Where the device was offered. -/
  pool : String
  /-- What was asked for. -/
  request : String
  attributes : SortedMap String String
  deriving DecidableEq

namespace AllocatedDevice

/-- A grant without attributes. -/
def plain (name : DeviceName) (pool request : String) : AllocatedDevice :=
  ⟨name, pool, request, .empty⟩

def withAttribute (device : AllocatedDevice) (key value : String) : AllocatedDevice :=
  { device with attributes := device.attributes.insert key value }

def fields : Json.Fields [DeviceName, String, String, SortedMap String String] :=
  .cons "name" DeviceName.codec .required
  (.cons "pool" .string (.defaulted "")
  (.cons "request" .string (.defaulted "")
  (.cons "attributes" (.map .string) (.defaulted .empty) .nil)))

/-- Grants are written as records. -/
def codec : Json.Codec AllocatedDevice :=
  .record "struct AllocatedDevice" fields
    (fun d => (d.name, d.pool, d.request, d.attributes, ()))
    (fun (name, pool, request, attributes, _) => ⟨name, pool, request, attributes⟩)

end AllocatedDevice

end NetRelocation
