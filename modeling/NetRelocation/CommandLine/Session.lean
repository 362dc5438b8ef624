import NetRelocation.CommandLine.Failure
import NetRelocation.Relocation.Netlink

/-!
# The work of a command

A command asks the kernel and prints. A `CommandM` is such work; what was printed before it failed
stays printed.
-/

namespace NetRelocation

/-- What a command works on. -/
structure Session where
  kernel : Kernel
  /-- What was printed. -/
  output : String

abbrev CommandM (α : Type) : Type := ExceptT Failure (StateM Session) α

namespace CommandM

def print (text : String) : CommandM Unit :=
  modify fun s => { s with output := s.output ++ text }

def printLine (text : String) : CommandM Unit := print (text ++ "\n")

def report (notice : Notice) : CommandM Unit :=
  modify fun s => { s with kernel := { s.kernel with notices := s.kernel.notices ++ [notice] } }

/-- Report several things. -/
def reportAll (notices : List Notice) : CommandM Unit :=
  modify fun s => { s with kernel := { s.kernel with notices := s.kernel.notices ++ notices } }

/-- Work with the kernel, telling whether it failed. -/
def attempt {α : Type} (work : KernelM α) : CommandM (Except Error α) := do
  let s ← get
  let (result, kernel) := Kernel.perform s.kernel work
  set { s with kernel := kernel }
  return result

/-- Work with the kernel; when it fails, the command fails for the given reason. -/
def askKernel {α : Type} (work : KernelM α) (failure : Error → Failure) : CommandM α := do
  match ← attempt work with
  | .ok a => return a
  | .error e => throw (failure e)

/-- Work without effects. -/
def orFail {α : Type} : Except Failure α → CommandM α
  | .ok a => return a
  | .error e => throw e

def perform {α : Type} (work : CommandM α) (kernel : Kernel) : Except Failure α × Session :=
  work ⟨kernel, ""⟩

end CommandM

end NetRelocation
