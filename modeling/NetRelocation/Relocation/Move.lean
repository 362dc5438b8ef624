import NetRelocation.Device.Prepared
import NetRelocation.Kernel.Socket

/-!
# Moving devices through the kernel

Both directions rename a device, change its properties and change its namespace in one request, so
that the device is never seen with half of its new properties. It is down while it moves and brought
up at its destination.
-/

namespace NetRelocation.Move

open Kernel

/-- Make the request that moves a device. An interrupted one has been carried out. -/
def execute (socket : Socket) (index : UInt32) (attributes : List LinkAttribute)
    (device : DeviceName) (ns : NamespaceRef) : KernelM Unit := do
  match ← socket.change index none attributes with
  | .ok _ => return ()
  | .error e =>
    if e.isInterrupted then return ()
    else
      report (.moveRejected device ns e.message)
      throw (Socket.rejected (.move device.text ns) e)

/-- Bring up a device that has been moved; whatever fails here fails after the move. -/
def enable (device place : String) (work : KernelM Unit) : KernelM Unit :=
  tryCatch work fun e => do
    report (.notBroughtUp device place e)
    throw (.enableFailed device place e.message)

/-- Give a link addresses up to the first that is refused. -/
def addAddresses (socket : Socket) (index : UInt32) (target : NamespaceRef) :
    List Network → KernelM Unit
  | [] => return ()
  | address :: addresses => do
    match ← socket.addAddress index address with
    | .ok _ => addAddresses socket index target addresses
    | .error e => throw (.addressAssignment address.display target.display e.message)

/-- Move a device from the host into a namespace, give it addresses there and bring it up. -/
def attach (device : DeviceName) (target : NamespaceRef) (config : LinkConfig)
    (addresses : List Network) : KernelM NetworkDeviceData := do
  let host ← openSocket .host
  let link ← host.linkByName device.text
  host.setDown link.index
  let file ← openNamespace target.file
  let name := config.name.getD device
  execute host link.index (moveAttributes name.text file.place config.attributes) device target
  let inside ← openSocketIn file
  let moved ← reportError (inside.linkByName name.text) (.movedDeviceMissing name target)
  addAddresses inside moved.index target addresses
  enable name.text target.display (inside.setUp moved.index)
  let interface := moved.name?.getD name.text
  report (.attached device interface target addresses.length)
  return ⟨interface, (moved.hardwareAddr?.map (·.display)).getD "", addresses.map (·.host)⟩

/-- The name that a device gets on the host: the wanted one, else its alias, else its own. -/
def outgoingName (link : Link) (device : DeviceName) (restore : Option DeviceName) : String :=
  match restore with
  | some name => name.text
  | none => link.aliasName?.getD device.text

def bringUpOnHost (name : String) : KernelM Unit := do
  let host ← openSocket .host
  let link ← host.linkByName name
  host.setUp link.index

/-- Move a device from a namespace back to the host and bring it up. -/
def detach (source : NamespaceRef) (device : DeviceName) (restore : Option DeviceName) :
    KernelM Unit := do
  let file ← openNamespace source.file
  let inside ← openSocketIn file
  let link ← inside.linkByName device.text
  inside.setDown link.index
  let name := outgoingName link device restore
  let hostFile ← openHostNamespace
  execute inside link.index (moveAttributes name hostFile.place []) device source
  enable name "host" (bringUpOnHost name)
  report (.detached device name source)

/-- The devices of the host, as far as they have names. -/
def listDevices : KernelM (List Device) := do
  let host ← openSocket .host
  return (← host.links).filterMap (·.toDevice?)

end NetRelocation.Move
