import NetRelocation.Device.Name
import NetRelocation.Error

/-!
# Failures of commands

Why a command failed, with its wording (`Failure.message`): what the command was about, then the
chain of causes.
-/

namespace NetRelocation

/-- The wording of an error with the causes below it. The cause of a failed operation on a file is
told by the error and told again as the cause. -/
def Error.chain : Error → String
  | .io cause => (Error.io cause).message ++ ": " ++ cause.message
  | e => e.message

/-- Why a command failed. -/
inductive Failure where
  | configNotLoaded (path : String) (error : Error)
  | configInvalid (cause : Invalid)
  | hostnameNotRead (number : Int)
  | hostnameNoText
  | feedLost (error : Error)
  | notAttached (device : DeviceName) (ns : NamespaceRef) (error : Error)
  | notDetached (device : DeviceName) (ns : NamespaceRef) (error : Error)
  | notListed (error : Error)
  /-- The machine has no network namespaces. -/
  | noNamespaces (path : String) (error : Error)
  | noSocket (error : Error)
  | dumpFailed (error : Error)

namespace Failure

def message : Failure → String
  | configNotLoaded path e => "Failed to load config from " ++ path ++ ": " ++ e.chain
  | configInvalid cause => "Invalid configuration: " ++ cause.report
  | hostnameNotRead number => "Failed to read hostname: " ++ Errno.named number
  | hostnameNoText => "Hostname is not valid UTF-8"
  | feedLost e => "Lifecycle feed could not be kept running: " ++ e.chain
  | notAttached device ns e =>
    "Failed to attach " ++ device.text ++ " to " ++ ns.display ++ ": " ++ e.chain
  | notDetached device ns e =>
    "Failed to detach " ++ device.text ++ " from " ++ ns.display ++ ": " ++ e.chain
  | notListed e => "Failed to list host devices: " ++ e.chain
  | noNamespaces path e =>
    "Cannot open " ++ path ++ ": " ++ e.message ++
    "\n\nYour kernel may be compiled without network namespace support."
  | noSocket e => "Cannot open a netlink socket: " ++ e.message
  | dumpFailed e => "Link dump failed: " ++ e.message

end Failure

end NetRelocation
