import NetRelocation.Kernel.FileTree
import NetRelocation.Kernel.Reply
import NetRelocation.Notice

/-!
# The kernel

The kernel answers from lists of replies and keeps the trace of what it was asked (`Kernel.trace`).
Work with it is a `KernelM`: it may fail, it consumes replies, and it extends the trace and the
notices.
-/

namespace NetRelocation

/-- Something that the kernel was asked. -/
inductive Exchange where
  /-- A request over a socket of a namespace, with the reply if there was one. -/
  | asked (socket : Place) (request : Request) (reply : Option Reply)
  /-- The wish to enter a namespace, with the error number, zero for success. -/
  | entered (place : Place) (errno : Int)
  deriving DecidableEq

/-- When a signal to stop arrives: while a request of this kind is made for the first time. -/
abbrev Signal : Type := Request → Bool

/-- What the kernel will answer and what it was asked. -/
structure Kernel where
  files : FileTree
  /-- Replies to look-ups and changes. -/
  replies : List Reply
  /-- Replies to dumps. -/
  dumps : List Reply
  /-- Error numbers of the sockets to be opened, zero for success. -/
  sockets : List Int
  /-- Error numbers of the namespaces to be entered, zero for success. -/
  entries : List Int
  signal : Signal
  /-- Whether the signal has arrived. -/
  signalled : Bool
  /-- What was asked, in order. -/
  trace : List Exchange
  /-- What was reported, in order. -/
  notices : List Notice

/-- Work with the kernel. -/
abbrev KernelM (α : Type) : Type := ExceptT Error (StateM Kernel) α

/-- An open namespace file. -/
structure NamespaceFile where
  path : String
  place : Place
  deriving DecidableEq, Repr

/-- A socket for requests, which belongs to the namespace it was opened in. -/
structure Socket where
  place : Place
  deriving DecidableEq, Repr

namespace Kernel

/-- A kernel that has not been asked anything yet. -/
def quiet (files : FileTree) : Kernel :=
  ⟨files, [], [], [], [], fun _ => false, false, [], []⟩

/-- Do some work. -/
def perform {α : Type} (k : Kernel) (work : KernelM α) : Except Error α × Kernel := work k

/-! ## Effects -/

def report (notice : Notice) : KernelM Unit :=
  modify fun k => { k with notices := k.notices ++ [notice] }

/-- Note what the kernel was asked. -/
def record (exchange : Exchange) : KernelM Unit :=
  modify fun k => { k with trace := k.trace ++ [exchange] }

/-- Do some work; when it fails, report something. -/
def reportError {α : Type} (work : KernelM α) (notice : Error → Notice) : KernelM α :=
  tryCatch work fun e => do
    report (notice e)
    throw e

/-- Note whether the signal arrives while a request is made. -/
def hear (request : Request) : KernelM Unit :=
  modify fun k =>
    let arrives := !k.signalled && k.signal request
    { k with
      signalled := k.signalled || arrives
      notices := if arrives then k.notices ++ [.signalReceived] else k.notices }

/-- Make a request over a socket. -/
def ask (socket : Socket) (request : Request) : KernelM (Option Reply) := do
  hear request
  let k ← get
  match request with
  | .dump =>
    set { k with dumps := k.dumps.tail }
    record (.asked socket.place request k.dumps.head?)
    return k.dumps.head?
  | _ =>
    set { k with replies := k.replies.tail }
    record (.asked socket.place request k.replies.head?)
    return k.replies.head?

def openSocket (place : Place) : KernelM Socket := do
  let k ← get
  set { k with sockets := k.sockets.tail }
  match k.sockets.head?.getD 0 with
  | 0 => return ⟨place⟩
  | errno => throw (.io (.errno errno))

/-- Why a namespace file cannot be opened. -/
def openError (path : String) : IoCause → Error
  | .errno 2 => .notFound .namespaceFile path
  | .errno 1 => .permissionDenied ("open namespace " ++ path)
  | .errno 13 => .permissionDenied ("open namespace " ++ path)
  | cause => .namespaceFailed (.notOpened path cause)

/-- The namespace behind a file. -/
def placeOf : List String × FileKind → Place
  | (_, .hostNamespace) => .host
  | (place, _) => .file (FileTree.displayPlace place)

def openNamespace (path : String) : KernelM NamespaceFile := do
  match (← get).files.openFile path with
  | .ok found => return ⟨path, placeOf found⟩
  | .error cause => throw (openError path cause)

def openHostNamespace : KernelM NamespaceFile := openNamespace FileTree.hostNamespacePath

def enter (file : NamespaceFile) : KernelM Unit := do
  let k ← get
  let errno := k.entries.head?.getD 0
  set { k with entries := k.entries.tail }
  record (.entered file.place errno)
  if errno ≠ 0 then
    report (.notEntered file.path errno)
    throw (.namespaceFailed (.notEntered file.path errno))

def openSocketIn (file : NamespaceFile) : KernelM Socket := do
  enter file
  openSocket file.place

end Kernel

end NetRelocation
