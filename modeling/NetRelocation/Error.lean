import NetRelocation.Errno
import NetRelocation.Invalid
import NetRelocation.Namespace.Ref
import NetRelocation.Workload.Id

/-!
# Errors

What can go wrong while devices are prepared and moved, as causes, with their wording
(`Error.message`). An error tells whether the device had changed its namespace before it arose
(`Error.deviceMoved`).
-/

namespace NetRelocation

/-- Why an operation on a file or socket failed. -/
inductive IoCause where
  | errno (number : Int)
  /-- A text file with bytes that are no text. -/
  | invalidText
  /-- A path with a NUL character. -/
  | nulInPath
  | other (message : String)
  deriving DecidableEq, Repr

def IoCause.message : IoCause → String
  | errno number => Errno.numbered number
  | invalidText => "stream did not contain valid UTF-8"
  | nulInPath => "file name contained an unexpected NUL byte"
  | other message => message

/-- What was looked up in vain. -/
inductive Missing where
  | device
  | namespaceFile
  deriving DecidableEq, Repr

/-- The word for what was looked up. -/
def Missing.word : Missing → String
  | device => "device"
  | namespaceFile => "namespace"

/-- What keeps a namespace from being used. -/
inductive NamespaceFault where
  | notOpened (file : String) (cause : IoCause)
  | notEntered (file : String) (number : Int)
  | other (message : String)
  deriving DecidableEq, Repr

def NamespaceFault.message : NamespaceFault → String
  | notOpened file cause => "Failed to open namespace " ++ file ++ ": " ++ cause.message
  | notEntered file number => "Failed to enter namespace " ++ file ++ ": " ++ Errno.named number
  | other message => message

/-- What the kernel was asked to do. -/
inductive Operation where
  | getLink (name : String)
  | dumpLinks
  | setDown (index : UInt32)
  | setUp (index : UInt32)
  /-- Move a device to or from a namespace. -/
  | move (device : String) (ns : NamespaceRef)
  /-- Take a device out of a namespace. -/
  | takeOut (device : String) (ns : NamespaceRef)
  | other (text : String)
  deriving DecidableEq, Repr

def Operation.text : Operation → String
  | getLink name => "get link " ++ name
  | dumpLinks => "dump links"
  | setDown index => "set link " ++ Text.Numeral.decimal index.toNat ++ " down"
  | setUp index => "set link " ++ Text.Numeral.decimal index.toNat ++ " up"
  | move device ns => "move " ++ device ++ " to " ++ ns.display
  | takeOut device ns => "move " ++ device ++ " out of " ++ ns.display
  | other text => text

/-- What an operation was asked for too early. -/
inductive Unmet where
  | nothingGranted
  | noNamespace (workload : WorkloadId)
  | notPrepared (workload : WorkloadId)
  | other (message : String)
  deriving DecidableEq

/-- The wording of an unmet condition. -/
def Unmet.message : Unmet → String
  | nothingGranted => "allocation has no granted devices"
  | noNamespace workload => "workload " ++ workload.text ++ " has no network namespace"
  | notPrepared workload => "workload " ++ workload.text ++ " was allocated but not prepared"
  | other message => message

/-- What an operation can fail with. -/
inductive Error where
  | io (cause : IoCause)
  | notFound (what : Missing) (name : String)
  | namespaceFailed (fault : NamespaceFault)
  /-- The kernel refused a request. -/
  | rejected (operation : Operation) (reason : String)
  /-- The device is at its destination and lacks an address. -/
  | addressAssignment (address place reason : String)
  /-- The device is at its destination and down. -/
  | enableFailed (device place reason : String)
  | precondition (cause : Unmet)
  | permissionDenied (operation : String)
  | invalid (cause : Invalid)
  /-- A subscription failed so many times in a row. -/
  | restartsExhausted (attempts : Nat)

namespace Error

def message : Error → String
  | io cause => "I/O error: " ++ cause.message
  | notFound what name => what.word ++ " not found: " ++ name
  | namespaceFailed fault => "Namespace error: " ++ fault.message
  | rejected operation reason => "Netlink " ++ operation.text ++ " rejected: " ++ reason
  | addressAssignment address place reason =>
    "Failed to assign " ++ address ++ " on namespace " ++ place ++ ": " ++ reason
  | enableFailed device place reason =>
    "Device " ++ device ++ " moved to " ++ place ++ " but could not be brought up: " ++ reason
  | precondition cause => "Precondition violated: " ++ cause.message
  | permissionDenied operation => "Permission denied: " ++ operation
  | invalid cause => cause.report
  | restartsExhausted attempts =>
    "Lifecycle subscription failed to restart after " ++ Text.Numeral.decimal attempts ++
    " attempts"

/-- Whether the device changed its namespace before the error arose. -/
def deviceMoved : Error → Bool
  | addressAssignment .. => true
  | enableFailed .. => true
  | _ => false

/-- Whether something looked up does not exist. -/
def isNotFound : Error → Bool
  | notFound .. => true
  | _ => false

/-- Whether an operation was asked for in a state that does not allow it. -/
def isPrecondition : Error → Bool
  | precondition _ => true
  | _ => false

end Error

end NetRelocation
