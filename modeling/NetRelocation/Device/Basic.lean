import NetRelocation.Address.Hardware

/-!
# Devices of the host

A network interface as the kernel lists it, and its JSON form.
-/

namespace NetRelocation

/-- What stands behind an interface. -/
inductive DeviceKind where
  /-- Hardware. -/
  | physical
  /-- Software, such as one end of a pair or a bridge. -/
  | virtual
  | loopback
  deriving DecidableEq, Repr

def DeviceKind.word : DeviceKind → String
  | physical => "physical"
  | virtual => "virtual"
  | loopback => "loopback"

/-- Kinds are written as words. -/
def DeviceKind.codec : Json.Codec DeviceKind :=
  .union (fun kind => .string kind.word)
    [.plain "physical" .physical, .plain "virtual" .virtual, .plain "loopback" .loopback]

/-- A network interface of the host. -/
structure Device where
  index : UInt32
  name : String
  hardwareAddr : Option HardwareAddr
  mtu : Option UInt32
  up : Bool
  kind : DeviceKind
  deriving DecidableEq, Repr

def Device.fields :
    Json.Fields [UInt32, String, Option HardwareAddr, Option UInt32, Bool, DeviceKind] :=
  .cons "index" .uint32 .required
  (.cons "name" .string .required
  (.cons "hardware_addr" (.option HardwareAddr.codec) (.implied none)
  (.cons "mtu" (.option .uint32) (.implied none)
  (.cons "up" .bool .required
  (.cons "kind" DeviceKind.codec .required .nil)))))

/-- Devices are written as records. -/
def Device.codec : Json.Codec Device :=
  .record "struct Device" fields
    (fun d => (d.index, d.name, d.hardwareAddr, d.mtu, d.up, d.kind, ()))
    (fun (index, name, hardwareAddr, mtu, up, kind, _) =>
      ⟨index, name, hardwareAddr, mtu, up, kind⟩)

end NetRelocation
