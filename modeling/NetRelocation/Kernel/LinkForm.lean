import NetRelocation.Kernel.Form

/-!
# Forms of the attributes of a link

The number of an attribute asks for a form (`LinkForm.ofNumber`). Two forms can stand inside
themselves: the description of a software link holds the attributes of its other end, and addresses
that a link shares are listed as attributes of a link that shares.
-/

namespace NetRelocation

/-- A form that can stand inside itself. -/
inductive LinkPart where
  /-- The description of a software link. -/
  | software
  /-- The data of a link that shares hardware under an address of its own. -/
  | sharing
  deriving DecidableEq, Repr

abbrev LinkForm := Form LinkPart

namespace LinkForm

open Form

/-! ## Hardware functions -/

/-- The counters of a hardware function. -/
def counterForm : Nat → LinkForm := sized [(8, [0, 1, 2, 3, 4, 5, 7, 8])]

/-- A network that a hardware function carries. -/
def carriedForm (number : Nat) : LinkForm := if number = 1 then record 14 else any

/-- What is known about a hardware function. -/
def functionForm : Nat → LinkForm
  | 1 => record 36
  | 2 => record 12
  | 3 => record 8
  | 4 => record 8
  | 5 => record 8
  | 6 => record 12
  | 7 => record 8
  | 8 => sequence counterForm
  | 9 => record 8
  | 10 => record 12
  | 11 => record 12
  | 12 => sequence carriedForm
  | 13 => record 32
  | _ => any

/-- A list of hardware functions. -/
def functions : LinkForm := trusting fun n => if n = 1 then trusting functionForm else any

/-- The wire of a hardware function. -/
def wire : LinkForm := trusting fun _ => any

/-- The wires of hardware functions. -/
def wires : LinkForm := trusting fun n => if n = 1 then wire else any

/-! ## Families of addresses -/

def bridgeFamily : Nat := 7

def ipv6Family : Nat := 10

/-- What the family of IPv6 knows about a link. -/
def ipv6Form : Nat → LinkForm
  | 1 => exactly 4
  | 3 => record 288
  | 5 => record 16
  | 6 => record 48
  | 7 => exactly 16
  | 8 => exactly 1
  | 9 => exactly 4
  | _ => any

/-- What a family knows about a link of no family. -/
def familyForm (family : Nat) : LinkForm :=
  if family = 2 then loose else if family = ipv6Family then sequence ipv6Form else any

/-- What is known about a link of a family, besides the attributes of every link. -/
def familyPart (family : Nat) : LinkForm :=
  if family = 0 then sequence familyForm
  else if family = bridgeFamily then sequence (sized [(2, [0]), (4, [2])])
  else any

/-- What the protocol of a family says about a link. -/
def protocolPart (family : Nat) : LinkForm :=
  if family = bridgeFamily ∨ family = ipv6Family then trusting fun _ => any else any

/-! ## Attributes -/

/-- A program that sees the packets first. -/
def programForm (number : Nat) : LinkForm :=
  if number = 2 then record 1 else sized [(4, [1, 3, 4, 5, 6, 7, 8])] number

def ofNumber (family number : Nat) : LinkForm :=
  match number with
  | 3 => text
  | 6 => text
  | 7 => record 96
  | 12 => protocolPart family
  | 14 => record 28
  | 18 => named .software
  | 20 => text
  | 22 => functions
  | 24 => wires
  | 25 => wire
  | 26 => familyPart family
  | 38 => text
  | 43 => filled (sequence programForm)
  | 52 => sequence fun n => if n = 53 then text else any
  | 55 => sequence (sized [(4, [1, 2])])
  | n =>
    sized
      [(1, [16, 17, 33, 39]),
       (4, [4, 5, 10, 13, 19, 21, 27, 28, 29, 30, 31, 32, 35, 37, 40, 41, 44, 45, 46, 47, 48, 49,
         50, 51])] n

end LinkForm

end NetRelocation
