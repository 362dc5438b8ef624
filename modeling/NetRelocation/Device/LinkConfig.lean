import NetRelocation.Address.Hardware
import NetRelocation.Device.Name

/-!
# Wanted properties of a moved device

What a device is given while it moves: each property that is not given stays as it is.
-/

namespace NetRelocation

/-- The properties that a device gets while it moves. -/
structure LinkConfig where
  name : Option DeviceName
  mtu : Option UInt32
  hardwareAddr : Option HardwareAddr
  gsoMaxSize : Option UInt32
  groMaxSize : Option UInt32
  gsoIPv4MaxSize : Option UInt32
  groIPv4MaxSize : Option UInt32
  deriving DecidableEq

namespace LinkConfig

def empty : LinkConfig := ⟨none, none, none, none, none, none, none⟩

/-- Set the two limits for segments of any family. -/
def withOffload (config : LinkConfig) (gso gro : UInt32) : LinkConfig :=
  { config with gsoMaxSize := some gso, groMaxSize := some gro }

/-- Set the two limits for segments of IPv4. -/
def withIPv4Offload (config : LinkConfig) (gso gro : UInt32) : LinkConfig :=
  { config with gsoIPv4MaxSize := some gso, groIPv4MaxSize := some gro }

def fields :
    Json.Fields [Option DeviceName, Option UInt32, Option HardwareAddr, Option UInt32,
      Option UInt32, Option UInt32, Option UInt32] :=
  .cons "name" (.option DeviceName.codec) (.implied none)
  (.cons "mtu" (.option .uint32) (.implied none)
  (.cons "hardware_addr" (.option HardwareAddr.codec) (.implied none)
  (.cons "gso_max_size" (.option .uint32) (.implied none)
  (.cons "gro_max_size" (.option .uint32) (.implied none)
  (.cons "gso_ipv4_max_size" (.option .uint32) (.implied none)
  (.cons "gro_ipv4_max_size" (.option .uint32) (.implied none) .nil))))))

/-- Configurations are written as records. -/
def codec : Json.Codec LinkConfig :=
  .record "struct LinkConfig" fields
    (fun c => (c.name, c.mtu, c.hardwareAddr, c.gsoMaxSize, c.groMaxSize, c.gsoIPv4MaxSize,
      c.groIPv4MaxSize, ()))
    (fun (name, mtu, hardwareAddr, gso, gro, gso4, gro4, _) =>
      ⟨name, mtu, hardwareAddr, gso, gro, gso4, gro4⟩)

end LinkConfig

end NetRelocation
