import NetRelocation.CommandLine.Command
import NetRelocation.CommandLine.Failure
import NetRelocation.Config
import NetRelocation.Kernel.FileTree

/-!
# Settings of the driver

The settings come in layers: an option of the command line is stronger than a key of the file, and a
key of the file is stronger than the default. What comes out is checked as a whole
(`ServeArgs.settings`).
-/

namespace NetRelocation

/-- What a machine tells about itself. -/
structure Machine where
  /-- The number of the user that runs the program. -/
  user : Nat
  /-- The bytes of the host name, or the error number of asking for it. -/
  hostname : Except Int (List UInt8)

namespace Machine

/-- Whether the user may do everything. -/
def isRoot (machine : Machine) : Bool := machine.user == 0

/-- The largest number of bytes of a host name. -/
def maxHostname : Nat := 255

/-- The host name up to its first zero byte. -/
def nodeName (machine : Machine) : Except Failure String :=
  match machine.hostname with
  | .error number => .error (.hostnameNotRead number)
  | .ok bytes =>
    if maxHostname < bytes.length then .error (.hostnameNotRead Errno.nameTooLong)
    else
      match Text.Utf8.decode? (bytes.takeWhile (· ≠ 0)) with
      | some cs => .ok (String.ofList cs)
      | none => .error .hostnameNoText

end Machine

namespace DriverConfig

/-- Read a configuration file. -/
def load (files : FileTree) (path : String) : Except Error DriverConfig :=
  match files.readText path with
  | .error cause => .error (.io cause)
  | .ok text => (ofText path text).mapError .invalid

/-- The name under which devices are offered: the configured one, else the name of the machine. -/
def resolveNode (config : DriverConfig) (machine : Machine) : Except Failure String :=
  match config.nodeName with
  | some name => .ok name
  | none => machine.nodeName

end DriverConfig

namespace ServeArgs

/-- The settings below the options: those of the file, or the standard ones. -/
def base (args : ServeArgs) (files : FileTree) : Except Failure DriverConfig :=
  match args.config with
  | none => .ok .standard
  | some path => (DriverConfig.load files path).mapError (.configNotLoaded path)

/-- Lay the options over other settings. -/
def overlay (args : ServeArgs) (config : DriverConfig) : DriverConfig :=
  { config with
    nodeName := args.nodeName.or config.nodeName
    eventsPath := args.events.or config.eventsPath
    publishIntervalSecs := args.publishInterval.getD config.publishIntervalSecs }

/-- The settings of the driver, provided that they are usable. -/
def settings (args : ServeArgs) (files : FileTree) : Except Failure DriverConfig :=
  match args.base files with
  | .error e => .error e
  | .ok base =>
    let config := args.overlay base
    match config.check with
    | .ok _ => .ok config
    | .error cause => .error (.configInvalid cause)

end ServeArgs

end NetRelocation
