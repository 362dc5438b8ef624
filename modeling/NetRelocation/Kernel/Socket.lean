import NetRelocation.Kernel.Basic

/-!
# Requests over a socket

Looking up, listing and changing links. A look-up or a listing that the kernel interrupts is
repeated up to three times in all.
-/

namespace NetRelocation.Socket

open Kernel

/-- The number of times a request is made that gets interrupted. -/
def attempts : Nat := 3

/-- The error of a request that the kernel refused. -/
def rejected (operation : Operation) (e : NetlinkError) : Error := .rejected operation e.message

/-- Look up a link with so many attempts. -/
def lookUp (socket : Socket) (name : String) : Nat → KernelM Link
  | 0 => throw (.notFound .device name)
  | n + 1 => do
    match Reply.link (← ask socket (.get name)) with
    | .ok (some link) => return link
    | .ok none => throw (.notFound .device name)
    | .error e =>
      if e.errno = some (Errno.noDevice : Int) then throw (.notFound .device name)
      else if e.isInterrupted then socket.lookUp name n
      else throw (rejected (.getLink name) e)

def linkByName (socket : Socket) (name : String) : KernelM Link := socket.lookUp name attempts

/-- The wording for a listing that was interrupted every time. -/
def alwaysInterrupted : String :=
  "interrupted " ++ Text.Numeral.decimal attempts ++ " times"

/-- List all links with so many attempts. -/
def dump (socket : Socket) : Nat → KernelM (List Link)
  | 0 => throw (.rejected .dumpLinks alwaysInterrupted)
  | n + 1 => do
    match Reply.dumped (← ask socket .dump) with
    | .ok links => return links
    | .error e => if e.isInterrupted then socket.dump n else throw (rejected .dumpLinks e)

def links (socket : Socket) : KernelM (List Link) := socket.dump attempts

/-- Change a link, telling whether that was accepted. -/
def change (socket : Socket) (index : UInt32) (up : Option Bool)
    (attributes : List LinkAttribute) : KernelM (Except NetlinkError Unit) := do
  return Reply.changed (← ask socket (.set index up attributes))

/-- Take a link down. -/
def setDown (socket : Socket) (index : UInt32) : KernelM Unit := do
  match ← socket.change index (some false) [] with
  | .ok _ => return ()
  | .error e => throw (rejected (.setDown index) e)

/-- Bring a link up. -/
def setUp (socket : Socket) (index : UInt32) : KernelM Unit := do
  match ← socket.change index (some true) [] with
  | .ok _ => return ()
  | .error e => throw (rejected (.setUp index) e)

/-- Give a link an address, telling whether that was accepted. -/
def addAddress (socket : Socket) (index : UInt32) (address : Network) :
    KernelM (Except NetlinkError Unit) := do
  return Reply.changed (← ask socket (.addAddress index address))

/-- A socket is shown without its contents. -/
def summary : String := "NetlinkHandle \x7b .. \x7d"

end NetRelocation.Socket
