import NetRelocation.Coordination.Program
import NetRelocation.Relocation.Move

/-!
# The kernel as something that moves devices
-/

namespace NetRelocation.Kernel

/-- The answer of some work, with what it reported. -/
def answer {α : Type} (k : Kernel) (work : KernelM α) : Answer α Kernel :=
  let (result, after) := Kernel.perform { k with notices := [] } work
  ⟨result, after.notices, { after with notices := k.notices }⟩

/-- The kernel moves devices by requests over sockets. -/
def relocator : Relocator Kernel where
  attach device target config addresses k := k.answer (Move.attach device target config addresses)
  detach source device restore k := k.answer (Move.detach source device restore)

end NetRelocation.Kernel
