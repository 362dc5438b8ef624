import NetRelocation.Errno
import NetRelocation.Kernel.Attribute
import NetRelocation.Address.Network

/-!
# Requests and replies

What the kernel is asked over a socket, what it replies, and what goes wrong on the way
(`NetlinkError`).
-/

namespace NetRelocation

/-- Why a request over a socket failed. -/
inductive NetlinkError where
  /-- The kernel replied with an error code, normally a negative error number. -/
  | reply (code : Int)
  | namespaceFailed (text : String)
  | requestFailed
  deriving DecidableEq, Repr

namespace NetlinkError

def message : NetlinkError → String
  | reply code => "Received a netlink error message " ++ Errno.numbered code.natAbs
  | namespaceFailed text => "Namespace error " ++ text
  | requestFailed => "A netlink request failed"

/-- The error number that the kernel replied with. -/
def errno : NetlinkError → Option Int
  | reply code => if code = 0 then none else some (-code)
  | _ => none

/-- Whether the kernel was interrupted, so that the request can be repeated. -/
def isInterrupted (e : NetlinkError) : Bool := e.errno == some (Errno.interrupted : Int)

end NetlinkError

/-- What the kernel is asked. -/
inductive Request where
  /-- Look up a link by name. -/
  | get (name : String)
  /-- List all links. -/
  | dump
  /-- Change a link: whether it is up, if that is to change, and its attributes. -/
  | set (index : UInt32) (up : Option Bool) (attributes : List LinkAttribute)
  | addAddress (index : UInt32) (address : Network)
  deriving DecidableEq

/-- What the kernel replies. -/
inductive Reply where
  | done
  | refused (errno : Int)
  /-- Links, and an error number when they are not all. -/
  | links (found : List Link) (errno : Option Int)
  deriving DecidableEq, Repr

namespace Reply

def errorOf (errno : Int) : NetlinkError := .reply (-errno)

/-- The error of an error number, where zero stands for success. -/
def errorOf? (errno : Int) : Option NetlinkError := if errno = 0 then none else some (errorOf errno)

def error? : Reply → Option NetlinkError
  | done => none
  | refused errno => errorOf? errno
  | links _ errno => errno.bind errorOf?

/-- The reply to a look-up: the first link, or none, or an error. Without a reply there is no
device. A reply with links has no error. -/
def link : Option Reply → Except NetlinkError (Option Link)
  | none => .error (errorOf Errno.noDevice)
  | some done => .error (errorOf Errno.noDevice)
  | some (refused errno) => (errorOf? errno).elim (.ok none) .error
  | some (links found _) => .ok (found.head?.bind (·.received.toOption))

/-- The reply to a dump: the links, or the error that ended it. -/
def dumped : Option Reply → Except NetlinkError (List Link)
  | none => .ok []
  | some (links found errno) =>
    if Link.losesSocket found then .ok []
    else (errno.bind errorOf?).elim (.ok (Link.receivedAll found)) .error
  | some reply => reply.error?.elim (.ok []) .error

/-- The reply to a change, which succeeds when there is no reply. -/
def changed : Option Reply → Except NetlinkError Unit
  | none => .ok ()
  | some reply => reply.error?.elim (.ok ()) .error

end Reply

end NetRelocation
