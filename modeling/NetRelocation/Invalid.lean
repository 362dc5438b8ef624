import NetRelocation.Json.Fault
import NetRelocation.Text.Quoted

/-!
# Values that are refused

Each way in which a name, an address, an attribute or a configuration can be unusable, with its
wording (`Invalid.message`).
-/

namespace NetRelocation

/-- Why a value is refused. -/
inductive Invalid where
  /-- A workload without an identifier. -/
  | emptyWorkload
  /-- An identifier of more bytes than the given limit. -/
  | longWorkload (limit : Nat)
  /-- An identifier with blanks or control characters. -/
  | workloadCharacters
  /-- A device name that is empty or has more bytes than the given limit. -/
  | deviceNameSize (name : String) (limit : Nat)
  /-- A device name with a meaning of its own. -/
  | deviceNameReserved (name : String)
  /-- A device name with separators, blanks or control characters. -/
  | deviceNameCharacters (name : String)
  | hardwareAddr (text : String)
  | emptyNamespace
  /-- A number that is no process. -/
  | namespaceProcess (text : String)
  /-- The attribute of a device that should be its packet size. -/
  | mtu (text device : String) (fault : Text.Numeral.Fault)
  /-- An item of an address list. -/
  | address (text : String)
  | emptyDriverName
  | emptyNodeName
  | zeroPublishInterval
  | zeroAttempts
  | emptyExclusion
  /-- A configuration file that cannot be decoded. -/
  | file (path : String) (fault : Json.Fault)
  | other (message : String)
  deriving Repr

namespace Invalid

/-- What an interface name is blamed for. -/
def nameMessage (name blame : String) : String :=
  "Interface name " ++ Text.quoted name ++ " " ++ blame

def message : Invalid → String
  | emptyWorkload => "Workload ID cannot be empty"
  | longWorkload limit => "Workload ID too long (max " ++ Text.Numeral.decimal limit ++ " chars)"
  | workloadCharacters => "Workload ID cannot contain whitespace or control characters"
  | deviceNameSize name limit =>
    nameMessage name ("must be 1-" ++ Text.Numeral.decimal limit ++ " bytes")
  | deviceNameReserved name => nameMessage name "is reserved"
  | deviceNameCharacters name => nameMessage name "contains invalid characters"
  | hardwareAddr text => "Invalid hardware address: " ++ Text.quoted text
  | emptyNamespace => "Namespace reference cannot be empty"
  | namespaceProcess text => "Invalid namespace PID: " ++ text
  | mtu text device fault =>
    "Invalid mtu " ++ Text.quoted text ++ " for device " ++ device ++ ": " ++ fault.message
  | address text => "Invalid address " ++ Text.quoted text ++ ": invalid address: " ++ text
  | emptyDriverName => "driver_name cannot be empty"
  | emptyNodeName => "node_name cannot be empty"
  | zeroPublishInterval => "publish_interval_secs must be positive"
  | zeroAttempts => "restart.max_attempts must be positive"
  | emptyExclusion => "excluded_prefixes cannot contain an empty prefix"
  | file path fault => "Failed to parse " ++ path ++ ": " ++ fault.message
  | other message => message

/-- The wording of a cause where it stands alone. -/
def report (cause : Invalid) : String := "Invalid configuration: " ++ cause.message

end Invalid

end NetRelocation
