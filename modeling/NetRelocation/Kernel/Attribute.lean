import NetRelocation.Kernel.Link
import NetRelocation.Kernel.SoftwareLink

/-!
# Attributes by number

An attribute of a link comes over a socket as a number and octets. The number gives it its form
(`LinkAttribute.check`) and its meaning (`LinkAttribute.received`). A link with an attribute that
does not fit is passed over; when an attribute ends where its reader does not look for the end,
nothing more comes over the socket, and what came with it is lost (`Link.losesSocket`).
-/

namespace NetRelocation

namespace LinkAttribute

/-! ## Numbers with a meaning -/

def addressNumber : Nat := 1

def nameNumber : Nat := 3

/-- The number of the packet size. -/
def mtuNumber : Nat := 4

/-- The number of the description of a software link. -/
def infoNumber : Nat := 18

def aliasNumber : Nat := 20

/-! ## What came over a socket -/

/-- Check the octets of an attribute of a link of no family. Each part that stands inside another
one is shorter, so the octets bound the depth. -/
def check (number : Nat) (bytes : List UInt8) : Except Misfit Unit :=
  (LinkForm.ofNumber 0 number).check (SoftwareLink.checkPart (bytes.length + 1)) bytes

/-- The attribute that a number and octets of its form stand for. -/
def ofNumber (number : Nat) (bytes : List UInt8) : LinkAttribute :=
  let text := (Form.textOf? bytes).getD ""
  if number = addressNumber then address bytes
  else if number = nameNumber then name text
  else if number = mtuNumber then mtu (UInt32.ofNat (Form.numberOf bytes))
  else if number = infoNumber then info none
  else if number = aliasNumber then aliasName text
  else other number bytes

/-- The attribute that came over a socket. -/
def received : LinkAttribute → Except Misfit LinkAttribute
  | other number bytes => do
    let number := number % Form.numberBound
    check number bytes
    return ofNumber number bytes
  | a => .ok a

end LinkAttribute

namespace Link

/-- The link that came over a socket. -/
def received (link : Link) : Except Misfit Link := do
  return { link with attributes := ← link.attributes.mapM LinkAttribute.received }

/-- Whether the socket is lost while links are read from it, since one of them ends too soon. -/
def losesSocket (links : List Link) : Bool := links.any (·.received matches .error .overrun)

/-- The links that came over a socket in a row, as far as they fit. -/
def receivedAll (links : List Link) : List Link := links.filterMap (·.received.toOption)

end Link

end NetRelocation
