import NetRelocation.Address.Network
import NetRelocation.Device.Allocated
import NetRelocation.Device.LinkConfig
import NetRelocation.Error

/-!
# Prepared devices

A grant is prepared by reading its attributes: afterwards everything is known that is needed to
move the device into a namespace and back (`PreparedDevice`, `PreparedArtifact`).
-/

namespace NetRelocation

/-- A device that is ready to be moved. -/
structure PreparedDevice where
  /-- The name on the host. -/
  hostName : DeviceName
  config : LinkConfig
  addresses : List Network
  deriving DecidableEq

/-- What preparing a workload's grants gives. -/
structure PreparedArtifact where
  /-- One entry per grant, in the order of the grants. -/
  devices : List PreparedDevice
  deriving DecidableEq

/-- Where a moved device arrived. -/
structure NetworkDeviceData where
  interfaceName : String
  hardwareAddress : String
  ips : List String
  deriving DecidableEq, Repr

/-! ## Reading attributes -/

/-- The trimmed items of a list with commas, without the blank ones. -/
def addressItems (list : String) : List String :=
  ((Text.split ',' list).map Text.trim).filter (· ≠ "")

/-- Read addresses; the first item that is none is blamed. -/
def parseAddresses : List String → Except Invalid (List Network)
  | [] => .ok []
  | item :: items =>
    match Network.ofString? item with
    | none => .error (.address item)
    | some net => (parseAddresses items).map (net :: ·)

/-- Read a list of addresses with commas between them. -/
def parseAddressList (list : String) : Except Invalid (List Network) :=
  parseAddresses (addressItems list)

namespace PreparedDevice

/-- Read an attribute that may be missing. -/
def readAttribute {α : Type} (device : AllocatedDevice) (key : String) (absent : α)
    (read : String → Except Invalid α) : Except Invalid α :=
  match device.attributes.get? key with
  | some text => read text
  | none => .ok absent

/-- Read a packet size, with blanks around it. -/
def readMtu (device : DeviceName) (text : String) : Except Invalid (Option UInt32) :=
  match Text.Numeral.readUInt32 (Text.trim text).toList with
  | .ok mtu => .ok (some mtu)
  | .error fault => .error (.mtu text device.text fault)

/-- Prepare a grant. The attributes are looked at in the order name, packet size, hardware address,
addresses. -/
def ofAllocation (device : AllocatedDevice) : Except Invalid PreparedDevice := do
  let name ← readAttribute device Attribute.interfaceName device.name DeviceName.parse
  let mtu ← readAttribute device Attribute.mtu none (readMtu device.name)
  let hardwareAddr ← readAttribute device Attribute.hardwareAddress none
    fun text => (HardwareAddr.parse (Text.trim text)).map some
  let addresses ← readAttribute device Attribute.addresses [] parseAddressList
  let config := { LinkConfig.empty with name := some name, mtu, hardwareAddr }
  return ⟨device.name, config, addresses⟩

/-- The name inside the namespace. -/
def namespaceName (device : PreparedDevice) : DeviceName :=
  device.config.name.getD device.hostName

def fields : Json.Fields [DeviceName, LinkConfig, List Network] :=
  .cons "host_name" DeviceName.codec .required
  (.cons "config" LinkConfig.codec .required
  (.cons "addresses" (.list Network.codec) .required .nil))

/-- Prepared devices are written as records. -/
def codec : Json.Codec PreparedDevice :=
  .record "struct PreparedDevice" fields
    (fun d => (d.hostName, d.config, d.addresses, ()))
    (fun (hostName, config, addresses, _) => ⟨hostName, config, addresses⟩)

end PreparedDevice

namespace PreparedArtifact

/-- Prepare every grant of a list; the first that cannot be prepared decides. -/
def prepareAll : List AllocatedDevice → Except Invalid (List PreparedDevice)
  | [] => .ok []
  | device :: devices =>
    match PreparedDevice.ofAllocation device with
    | .error cause => .error cause
    | .ok prepared => (prepareAll devices).map (prepared :: ·)

/-- Prepare the grants of a workload, of which there has to be one. -/
def ofAllocation (devices : List AllocatedDevice) : Except Error PreparedArtifact :=
  match devices with
  | [] => .error (.precondition .nothingGranted)
  | _ =>
    match prepareAll devices with
    | .ok prepared => .ok ⟨prepared⟩
    | .error cause => .error (.invalid cause)

def hostNames (artifact : PreparedArtifact) : List DeviceName := artifact.devices.map (·.hostName)

def fields : Json.Fields [List PreparedDevice] :=
  .cons "devices" (.list PreparedDevice.codec) .required .nil

/-- Artifacts are written as records. -/
def codec : Json.Codec PreparedArtifact :=
  .record "struct PreparedArtifact" fields (fun a => (a.devices, ()))
    (fun (devices, _) => ⟨devices⟩)

end PreparedArtifact

namespace NetworkDeviceData

/-- The fields of a report on a moved device. -/
def fields : Json.Fields [String, String, List String] :=
  .cons "interface_name" .string .required
  (.cons "hardware_address" .string .required
  (.cons "ips" (.list .string) .required .nil))

/-- Reports on moved devices are written as records. -/
def codec : Json.Codec NetworkDeviceData :=
  .record "struct NetworkDeviceData" fields
    (fun d => (d.interfaceName, d.hardwareAddress, d.ips, ()))
    (fun (interfaceName, hardwareAddress, ips, _) => ⟨interfaceName, hardwareAddress, ips⟩)

end NetworkDeviceData

end NetRelocation
