import NetRelocation.CommandLine.Session
import NetRelocation.CommandLine.Settings
import NetRelocation.Publication.Device

/-!
# Looking at the host

The commands that list the devices of the host and that check what the machine offers.
-/

namespace NetRelocation

open CommandM

/-- A line across the page. -/
def rule (width : Nat) : String := Text.replicate width '-'

/-! ## Devices -/

namespace DeviceTable

def width : Nat := 72

/-- The widths of all columns but the last. -/
def columns : List Nat := [6, 16, 9, 5, 6]

/-- A row: cells are filled up to the width of their column and stand apart by a blank. -/
def row : List Nat → List String → String
  | w :: ws, cell :: cells => Text.padRight w cell ++ " " ++ row ws cells
  | _, cells => Text.join " " cells

def titles : List String := ["Index", "Name", "Kind", "Up", "MTU", "MAC"]

def cells (device : Device) : List String :=
  [Text.Numeral.decimal device.index.toNat, device.name, device.kind.word,
   if device.up then "yes" else "no",
   (device.mtu.map fun n => Text.Numeral.decimal n.toNat).getD "",
   (device.hardwareAddr.map (·.display)).getD ""]

/-- The lines below the devices. -/
def footer (devices : List Device) : List String :=
  if devices = [] then ["No relocatable devices found"]
  else [rule width, "Total: " ++ Text.Numeral.decimal devices.length ++ " device(s)"]

def lines (devices : List Device) : List String :=
  ["", "🔌 Host devices", rule width, row columns titles, rule width] ++
  devices.map (fun d => row columns (cells d)) ++ footer devices

end DeviceTable

/-- List the devices of the host: all of them, or those that the standard policy offers. -/
def listDevices (all : Bool) : CommandM Unit := do
  let found ← askKernel Move.listDevices .notListed
  let devices := if all then found else DevicePolicy.standard.keep found
  (DeviceTable.lines devices).forM printLine

/-! ## Health -/

namespace Health

def width : Nat := 60

/-- Where named namespaces are found. -/
def namedNamespaces : String := "/run/netns"

/-- Whether the user may move devices. -/
def checkPermissions (machine : Machine) : CommandM Unit := do
  print "Checking permissions... "
  if machine.isRoot then printLine "✅ OK (root)"
  else
    printLine "⚠️  NOT ROOT"
    printLine "   Listing devices works, moving them needs CAP_NET_ADMIN"
    printLine "   Try: sudo hostnet health"

/-- Whether named namespaces can exist. -/
def hasNamedNamespaces (files : FileTree) : Bool :=
  match files.find namedNamespaces with
  | .ok (_, .directory) => true
  | _ => false

def checkNamespaces : CommandM Unit := do
  print "Checking network namespace support... "
  match ← attempt Kernel.openHostNamespace with
  | .error e =>
    printLine "❌ NOT SUPPORTED"
    throw (.noNamespaces FileTree.hostNamespacePath e)
  | .ok _ =>
    if hasNamedNamespaces (← get).kernel.files then printLine "✅ OK (/run/netns present)"
    else
      printLine "✅ OK"
      printLine "   /run/netns does not exist; named namespaces are unavailable"

/-- Whether links can be listed. -/
def checkLinks : CommandM Unit := do
  print "Checking route netlink... "
  match ← attempt (Kernel.openSocket .host) with
  | .error e =>
    printLine "❌ UNAVAILABLE"
    throw (.noSocket e)
  | .ok socket =>
    match ← attempt socket.links with
    | .error e =>
      printLine "❌ ERROR"
      throw (.dumpFailed e)
    | .ok links => printLine ("✅ OK (" ++ Text.Numeral.decimal links.length ++ " links)")

/-- Check what the machine offers, up to the first thing that is missing. -/
def check (machine : Machine) : CommandM Unit := do
  print "\n🏥 Hostnet Health Check\n\n"
  printLine (rule width)
  checkPermissions machine
  checkNamespaces
  checkLinks
  printLine (rule width)
  print "\n✅ All systems operational!\n\n"

end Health

end NetRelocation
