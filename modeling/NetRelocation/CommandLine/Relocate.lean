import NetRelocation.CommandLine.Command
import NetRelocation.CommandLine.Session

/-!
# Moving a device by hand

The commands that move one device into a namespace and back.
-/

namespace NetRelocation

open CommandM

namespace AttachArgs

/-- The properties that the device gets. -/
def linkConfig (args : AttachArgs) : LinkConfig :=
  { LinkConfig.empty with
    name := args.name, mtu := args.mtu, hardwareAddr := args.hardwareAddress }

/-- The requests of the command. -/
def move (args : AttachArgs) : KernelM NetworkDeviceData :=
  Move.attach args.device args.netns args.linkConfig args.addresses

/-- Move a device into a namespace and print where it arrived. -/
def execute (args : AttachArgs) : CommandM Unit := do
  report (.attaching args.device args.netns args.addresses.length)
  let data ← askKernel args.move (.notAttached args.device args.netns)
  printLine (NetworkDeviceData.codec.write data).pretty

end AttachArgs

namespace DetachArgs

/-- What is printed about a device that is back. -/
def summary (args : DetachArgs) : String :=
  "✅ " ++ args.device.text ++ " returned to the host namespace" ++
  (args.restoreName.map fun name => " as " ++ name.text).getD ""

/-- Move a device back to the host. -/
def execute (args : DetachArgs) : CommandM Unit := do
  report (.detaching args.device args.netns)
  askKernel (Move.detach args.netns args.device args.restoreName)
    (.notDetached args.device args.netns)
  printLine args.summary

end DetachArgs

end NetRelocation
