import NetRelocation.CommandLine.Inspect
import NetRelocation.CommandLine.Relocate
import NetRelocation.CommandLine.Serve

/-!
# Running a command line

A command line is read, its command is run, and the program ends with a status and with what it
printed (`runProgram`).
-/

namespace NetRelocation

/-- Everything around the program. -/
structure Surroundings where
  machine : Machine
  kernel : Kernel

namespace Command

/-- Do what a command asks for. -/
def execute (machine : Machine) : Command → CommandM Unit
  | serve args => Driver.serve machine args
  | attach args => args.execute
  | detach args => args.execute
  | devices all => listDevices all
  | health => Health.check machine

end Command

/-- The end of a command. -/
structure Execution where
  result : Except Failure Unit
  session : Session

def Command.run (command : Command) (around : Surroundings) : Execution :=
  let (result, session) := CommandM.perform (command.execute around.machine) around.kernel
  ⟨result, session⟩

/-! ## The program -/

/-- How the program ends. -/
structure Ending where
  status : Nat
  output : String
  errors : String
  deriving DecidableEq, Repr

namespace Ending

def version : String := "0.1.0"

/-- The end of a program whose command line was not accepted. -/
def ofUsage (e : UsageError) : Ending where
  status := e.exitCode
  output := if e = .version then CommandLine.program ++ " " ++ version ++ "\n" else ""
  errors := e.shown

/-- The end of a program that ran a command. -/
def ofExecution (e : Execution) : Ending :=
  match e.result with
  | .ok _ => ⟨0, e.session.output, ""⟩
  | .error failure => ⟨1, e.session.output, "❌ Error: " ++ failure.message ++ "\n"⟩

end Ending

def runProgram (words : List String) (around : Surroundings) : Ending :=
  match Invocation.parse words with
  | .error e => .ofUsage e
  | .ok invocation => .ofExecution (invocation.command.run around)

end NetRelocation
