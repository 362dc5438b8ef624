import NetRelocation.Address.Network
import NetRelocation.CommandLine.Scan
import NetRelocation.Device.Name
import NetRelocation.Address.Hardware
import NetRelocation.Namespace.Ref

/-!
# Commands

The commands of the program with their options, and how they are read from words
(`Invocation.parse`).
-/

namespace NetRelocation

/-- What the driver is started with. -/
structure ServeArgs where
  config : Option String
  nodeName : Option String
  events : Option String
  publishInterval : Option UInt64
  deriving DecidableEq, Repr

/-- A device to be moved into a namespace. -/
structure AttachArgs where
  device : DeviceName
  netns : NamespaceRef
  name : Option DeviceName
  mtu : Option UInt32
  hardwareAddress : Option HardwareAddr
  addresses : List Network
  deriving DecidableEq

/-- A device to be moved back to the host. -/
structure DetachArgs where
  netns : NamespaceRef
  device : DeviceName
  restoreName : Option DeviceName
  deriving DecidableEq

inductive Command where
  | serve (args : ServeArgs)
  | attach (args : AttachArgs)
  | detach (args : DetachArgs)
  | devices (all : Bool)
  | health
  deriving DecidableEq

/-- A whole command line. -/
structure Invocation where
  verbose : Bool
  command : Command
  deriving DecidableEq

namespace CommandLine

/-! ## Values -/

/-- A value of a grammar of its own. -/
def parsedValue {α : Type} (read : String → Except Invalid α) (value : String) :
    Except ValueFault α :=
  (read value).mapError fun cause => .invalid cause.report

/-- A path, which is not empty. -/
def pathValue (value : String) : Except ValueFault String :=
  if value = "" then .error .missing else .ok value

/-- An address with a length. -/
def networkValue (value : String) : Except ValueFault Network :=
  (Network.parse value).mapError .invalid

def secondsValue (value : String) : Except ValueFault UInt64 :=
  (Text.Numeral.readUInt64 value.toList).mapError fun fault => .invalid fault.message

/-- A packet size: a signed numeral in range. -/
def mtuValue (value : String) : Except ValueFault UInt32 :=
  match Text.Numeral.readInt (Nat.pow 2 63) value.toList with
  | .error fault => .error (.invalid fault.message)
  | .ok n =>
    if 0 ≤ n ∧ n < UInt32.size then .ok (UInt32.ofNat n.toNat)
    else .error (.invalid (Text.Numeral.signed n ++ " is not in 0..=4294967295"))

/-! ## Drafts -/

/-- A command of which some options have been read; the options of all commands have a place. -/
structure Draft where
  verbose : Bool
  all : Bool
  config : Option String
  nodeName : Option String
  events : Option String
  publishInterval : Option UInt64
  device : Option DeviceName
  netns : Option NamespaceRef
  name : Option DeviceName
  mtu : Option UInt32
  hardwareAddress : Option HardwareAddr
  /-- The addresses, the last one first. -/
  addresses : List Network
  restoreName : Option DeviceName

namespace Draft

/-- Nothing has been read. -/
def empty : Draft :=
  ⟨false, false, none, none, none, none, none, none, none, none, none, [], none⟩

/-! ## Options -/

/-- An option whose value has a place in the draft. -/
def option {α : Type} (long : String) (short : Option Char) (valueName : String)
    (put : Draft → α → Draft) (read : String → Except ValueFault α) : ValueOption Draft where
  long := long
  short := short
  valueName := valueName
  repeatable := false
  required := false
  set value d := (read value).map (put d)

def deviceOption : ValueOption Draft :=
  { option "device" (some 'd') "DEVICE" (fun d v => { d with device := some v })
      (parsedValue DeviceName.parse) with required := true }

def netnsOption : ValueOption Draft :=
  { option "netns" (some 'n') "NETNS" (fun d v => { d with netns := some v })
      (parsedValue NamespaceRef.parse) with required := true }

def nameOption : ValueOption Draft :=
  option "name" none "NAME" (fun d v => { d with name := some v }) (parsedValue DeviceName.parse)

def mtuOption : ValueOption Draft :=
  option "mtu" none "MTU" (fun d v => { d with mtu := some v }) mtuValue

def hardwareAddressOption : ValueOption Draft :=
  option "hardware-address" none "HARDWARE_ADDRESS"
    (fun d v => { d with hardwareAddress := some v }) (parsedValue HardwareAddr.parse)

/-- The addresses, one at a time. -/
def addressOption : ValueOption Draft :=
  { option "address" (some 'a') "ADDRESSES" (fun d v => { d with addresses := v :: d.addresses })
      networkValue with repeatable := true }

def serveOptions : List (ValueOption Draft) :=
  [option "config" (some 'c') "CONFIG" (fun d v => { d with config := some v }) pathValue,
   option "node-name" none "NODE_NAME" (fun d v => { d with nodeName := some v }) .ok,
   option "events" none "EVENTS" (fun d v => { d with events := some v }) pathValue,
   option "publish-interval" none "PUBLISH_INTERVAL"
     (fun d v => { d with publishInterval := some v }) secondsValue]

/-- The options of the way into a namespace. -/
def attachOptions : List (ValueOption Draft) :=
  [deviceOption, netnsOption, nameOption, mtuOption, hardwareAddressOption, addressOption]

/-- The options of the way back. -/
def detachOptions : List (ValueOption Draft) :=
  [netnsOption, deviceOption,
   option "restore-name" none "RESTORE_NAME" (fun d v => { d with restoreName := some v })
     (parsedValue DeviceName.parse)]

def verboseSwitch : Switch Draft :=
  ⟨"verbose", some 'v', "Enable verbose logging", false, fun d => .ok { d with verbose := true }⟩

def allSwitch : Switch Draft :=
  ⟨"all", some 'a', "Include loopback, down and excluded devices", true,
    fun d => .ok { d with all := true }⟩

def helpSwitch : Switch Draft := ⟨"help", some 'h', "Print help", false, fun _ => .error .help⟩

def versionSwitch : Switch Draft :=
  ⟨"version", some 'V', "Print version", false, fun _ => .error .version⟩

/-- The driver's command of a draft. -/
def serve (d : Draft) : Option Command :=
  some (.serve ⟨d.config, d.nodeName, d.events, d.publishInterval⟩)

/-- The command of a draft that moves a device into a namespace. -/
def attach (d : Draft) : Option Command := do
  return .attach ⟨← d.device, ← d.netns, d.name, d.mtu, d.hardwareAddress, d.addresses.reverse⟩

/-- The command of a draft that moves a device back. -/
def detach (d : Draft) : Option Command := do
  return .detach ⟨← d.netns, ← d.device, d.restoreName⟩

def devices (d : Draft) : Option Command := some (.devices d.all)

/-- The command that looks at the machine. -/
def health (_ : Draft) : Option Command := some .health

end Draft

/-! ## Commands -/

def program : String := "hostnet"

def purpose : String := "Host network device relocation driver"

/-- A command as it is read. -/
structure CommandSpec where
  name : String
  /-- What the command does. -/
  about : String
  options : Options Draft
  /-- The command of a draft, unless an option is missing that has to be given. -/
  finish : Draft → Option Command

/-- A command with the switches that every command has. -/
def spec (name about : String) (values : List (ValueOption Draft)) (switches : List (Switch Draft))
    (finish : Draft → Option Command) : CommandSpec :=
  ⟨name, about,
    ⟨program ++ " " ++ name, values, switches ++ [Draft.verboseSwitch, Draft.helpSwitch], []⟩,
    finish⟩

/-- The command that moves a device into a namespace. -/
def attachSpec : CommandSpec :=
  spec "attach" "Move a host device into a network namespace" Draft.attachOptions [] Draft.attach

def commands : List CommandSpec :=
  [spec "serve" "Run the driver: publish devices and follow the lifecycle feed" Draft.serveOptions
     [] Draft.serve,
   attachSpec,
   spec "detach" "Move a device from a network namespace back to the host" Draft.detachOptions []
     Draft.detach,
   spec "devices" "List host devices that can be relocated" [] [Draft.allSwitch] Draft.devices,
   spec "health" "Check system requirements" [] [] Draft.health]

def helpWord : String := "help"

/-- What the word that asks for help does. -/
def helpAbout : String := "Print this message or the help of the given subcommand(s)"

/-- The words that name a command. -/
def subcommands : List String := commands.map (·.name) ++ [helpWord]

/-- The switches before the command. -/
def rootOptions : Options Draft :=
  ⟨program, [], [{ Draft.verboseSwitch with own := true }, Draft.helpSwitch, Draft.versionSwitch],
    ["<COMMAND>"]⟩

/-! ## The overview -/

/-- Rows with what stands on the left aligned. -/
def rows (entries : List (String × String)) : List String :=
  let width := (entries.map (·.1.length)).foldl max 0
  entries.map fun e => "  " ++ Text.padRight width e.1 ++ "  " ++ e.2

def switchEntry (s : Switch Draft) : String × String :=
  (s.short.elim "" (fun c => String.ofList ['-', c, ',', ' ']) ++ s.display, s.about)

/-- What is shown when no word was given. -/
def overview : String :=
  Text.join "\n" (
    [purpose, "", UsageError.usageTitle ++ rootOptions.usage, "", "Commands:"] ++
    rows (commands.map (fun c => (c.name, c.about)) ++ [(helpWord, helpAbout)]) ++
    ["", "Options:"] ++ rows (rootOptions.switches.map switchEntry)) ++ "\n"

/-! ## Reading a command line -/

/-- The error of a word that names no command. -/
def unknownCommand (w : String) : UsageError :=
  let similar := Text.similar w subcommands
  .unknownSubcommand w (if similar = [] then none else some (.commands similar)) rootOptions.usage

/-- The form of a request for help. -/
def helpUsage : String := program ++ " " ++ helpWord ++ " [COMMAND]..."

/-- Help on a command: the words after the first must not be there, as no command has commands of
its own. -/
def helpOn : List String → UsageError
  | [] => .help
  | w :: ws =>
    match commands.find? (·.name = w), ws with
    | some _, [] => .help
    | some c, w :: _ => .unknownSubcommand w none c.options.usage
    | none, ws =>
      if w = helpWord then ws.head?.elim .help fun w => .unknownTopic w helpUsage
      else .unknownSubcommand w none rootOptions.usage

/-- Read the words after the name of a command. -/
def CommandSpec.parse (c : CommandSpec) (verbose : Bool) (ws : List String) :
    Except UsageError Invocation := do
  let reading ← scan c.options ws none ⟨[], .empty⟩
  match c.finish reading.draft with
  | some command => return ⟨verbose || reading.draft.verbose, command⟩
  | none =>
    throw (.missingRequired (c.options.required.filter (· ∉ reading.given))
      (c.options.usageWith reading.given false))

/-- The error of a command line that ends without a command. -/
def noCommand (reading : Reading Draft) : UsageError :=
  if reading.given = [] then .nothingGiven overview
  else .missingSubcommand program subcommands rootOptions.usage

/-- A long option of a command that is named later. -/
def elsewhere? (ws : List String) (name : String) : Option Tip :=
  let found := commands.filterMap fun c => do
    let place ← ws.findIdx? (· = c.name)
    let (long, _) ← c.options.closest? name
    return (place, Tip.elsewhere c.name ("--" ++ long))
  (found.mergeSort fun x y => x.1 ≤ y.1).head?.map (·.2)

/-- Read the words of a command line, after those that have been read. -/
def parseFrom : List String → Reading Draft → Except UsageError Invocation
  | [], reading => .error (noCommand reading)
  | w :: ws, reading =>
    match Word.ofString w with
    | .separator =>
      match ws with
      | [] => .error (noCommand reading)
      | w :: _ =>
        .error (
          if w ∈ subcommands then .unknownArgument w (some (.noSeparator w)) rootOptions.usage
          else unknownCommand w)
    | .long cs =>
      match readLong rootOptions (elsewhere? ws) cs none reading with
      | .ok (_, reading) => parseFrom ws reading
      | .error e => .error e
    | .letters cs =>
      match readLetters rootOptions cs none reading with
      | .ok (_, reading) => parseFrom ws reading
      | .error e => .error e
    | .plain =>
      if w = helpWord then .error (helpOn ws)
      else
        match commands.find? (·.name = w) with
        | some c => c.parse reading.draft.verbose ws
        | none => .error (unknownCommand w)

end CommandLine

def Invocation.parse (words : List String) : Except UsageError Invocation :=
  CommandLine.parseFrom words ⟨[], .empty⟩

end NetRelocation
