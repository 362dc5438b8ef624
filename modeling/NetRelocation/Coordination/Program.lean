import NetRelocation.Notice
import NetRelocation.Workload.Store

/-!
# Programs of the coordinator

What the coordinator does is a sequence of steps: single operations on the record of workloads,
requests to move a device, and notices. A `Program` is such a sequence, in which each step may
depend on the answers before it. It says nothing about who answers the requests, nor about what
other programs do between two of its steps; `Program.run` runs one alone.
-/

namespace NetRelocation

/-! ## Steps -/

/-- One operation on the record of workloads. -/
inductive StoreAction where
  | recordPrepared (w : WorkloadId) (devices : List AllocatedDevice) (artifact : PreparedArtifact)
  | read (w : WorkloadId)
  | clearPrepared (w : WorkloadId)
  | markAttached (w : WorkloadId) (device : DeviceName)
  | markDetached (w : WorkloadId) (device : DeviceName)
  | markNetworkDetached (w : WorkloadId)
  | purge (w : WorkloadId)
  deriving DecidableEq

namespace StoreAction

def Response : StoreAction → Type
  | recordPrepared .. => List DeviceName
  | read _ => Option Entry
  | clearPrepared _ => Bool
  | markAttached .. => Unit
  | markDetached .. => Unit
  | markNetworkDetached _ => Unit
  | purge _ => Bool

def answer : (action : StoreAction) → Store → action.Response
  | recordPrepared w _ artifact, store => store.lost w artifact
  | read w, store => store.read w
  | clearPrepared w, store => store.isPrepared w
  | markAttached .., _ => ()
  | markDetached .., _ => ()
  | markNetworkDetached _, _ => ()
  | purge w, store => store.contains w

/-- The record after an operation. -/
def apply : StoreAction → Store → Store
  | recordPrepared w devices artifact, store => store.recordPrepared w devices artifact
  | read _, store => store
  | clearPrepared w, store => store.clearPrepared w
  | markAttached w device, store => store.markAttached w device
  | markDetached w device, store => store.markDetached w device
  | markNetworkDetached w, store => store.markNetworkDetached w
  | purge w, store => store.purge w

end StoreAction

/-- A request to move a device. -/
inductive Relocation where
  /-- From the host into a namespace. -/
  | attach (device : DeviceName) (target : NamespaceRef) (config : LinkConfig)
      (addresses : List Network)
  /-- From a namespace back to the host. -/
  | detach (source : NamespaceRef) (device : DeviceName) (restore : Option DeviceName)
  deriving DecidableEq

namespace Relocation

/-- What is known after the device has been moved. -/
def Result : Relocation → Type
  | attach .. => NetworkDeviceData
  | detach .. => Unit

abbrev Response (request : Relocation) : Type := Except Error request.Result

end Relocation

/-- Steps that end in a value. -/
inductive Program (α : Type) where
  | done (a : α)
  | store (action : StoreAction) (next : action.Response → Program α)
  | relocate (request : Relocation) (next : request.Response → Program α)
  | note (notice : Notice) (next : Program α)

namespace Program

variable {α β : Type}

/-- Go on with the value at the end. -/
def andThen (f : α → Program β) : Program α → Program β
  | done a => f a
  | store action next => store action fun r => (next r).andThen f
  | relocate request next => relocate request fun r => (next r).andThen f
  | note notice next => note notice (next.andThen f)

instance : Monad Program where
  pure := done
  bind p f := p.andThen f

/-- The program of one operation on the record. -/
def ofAction (action : StoreAction) : Program action.Response := store action done

def ofNotice (notice : Notice) : Program Unit := note notice (done ())

def ofNotices : List Notice → Program Unit
  | [] => done ()
  | notice :: notices => note notice (ofNotices notices)

end Program

/-! ## Running alone -/

/-- The answer to a request, with what was reported meanwhile. -/
structure Answer (α σ : Type) where
  result : Except Error α
  notices : List Notice
  state : σ

/-- Something that moves devices and has states of type `σ`. -/
structure Relocator (σ : Type) where
  attach : DeviceName → NamespaceRef → LinkConfig → List Network → σ → Answer NetworkDeviceData σ
  detach : NamespaceRef → DeviceName → Option DeviceName → σ → Answer Unit σ

def Relocator.answer {σ : Type} (r : Relocator σ) :
    (request : Relocation) → σ → Answer request.Result σ
  | .attach device target config addresses, s => r.attach device target config addresses s
  | .detach source device restore, s => r.detach source device restore s

/-- The record of workloads together with the state of what moves devices. -/
structure World (σ : Type) where
  store : Store
  relocator : σ

/-- What a run ends in. -/
structure Outcome (α ω : Type) where
  value : α
  notices : List Notice
  world : ω

/-- Report something first. -/
def Outcome.after {α ω : Type} (notices : List Notice) (o : Outcome α ω) : Outcome α ω :=
  { o with notices := notices ++ o.notices }

/-- Run a program with nothing between its steps. -/
def Program.run {α σ : Type} (r : Relocator σ) : Program α → World σ → Outcome α (World σ)
  | .done a, world => ⟨a, [], world⟩
  | .store action next, world =>
    (next (action.answer world.store)).run r { world with store := action.apply world.store }
  | .relocate request next, world =>
    let answer := r.answer request world.relocator
    ((next answer.result).run r { world with relocator := answer.state }).after answer.notices
  | .note notice next, world => (next.run r world).after [notice]

end NetRelocation
