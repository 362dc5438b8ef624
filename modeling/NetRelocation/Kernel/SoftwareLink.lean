import NetRelocation.Kernel.LinkForm

/-!
# Descriptions of software links

A link without hardware describes itself by a sequence of attributes: its kind, and after it data
whose form depends on the kind. When the link belongs to another one, the kind of that one and data
for it follow; the kind of an owner serves the next data only (`describe`).
-/

namespace NetRelocation.SoftwareLink

open Form

/-! ## Forms of the data -/

/-- A change of priority on the way in or out. -/
def priorityForm (number : Nat) : LinkForm := if number = 1 then taking 4 (exactly 8) else any

/-- The data of a link that carries one of several networks. -/
def vlanForm (number : Nat) : LinkForm :=
  if number = 3 ∨ number = 4 then sequence priorityForm else sized [(2, [1, 5]), (8, [2])] number

/-- The data of a link that carries a network inside another one. -/
def vxlanForm : Nat → LinkForm :=
  sized
    [(1, [5, 6, 7, 11, 12, 13, 14, 18, 19, 20, 21, 22, 25, 28, 29, 30, 31]), (2, [15]),
     (4, [1, 3, 8, 9, 10, 26])]

/-- Who asks for the members of groups. -/
def querierForm : Nat → LinkForm := sized [(4, [1, 2, 6]), (8, [3, 7]), (16, [5])]

def bridgeForm (number : Nat) : LinkForm :=
  if number = 10 ∨ number = 11 then record 8
  else if number = 47 then sequence querierForm
  else
    sized
      [(1, [7, 14, 15, 22, 23, 24, 25, 36, 37, 38, 41, 42, 43, 44, 45]), (2, [6, 8, 9, 12, 39]),
       (4, [1, 2, 3, 4, 5, 13, 26, 27, 28, 29]), (6, [20]),
       (8, [16, 17, 18, 19, 30, 31, 32, 33, 34, 35, 46])] number

/-- What the members of a bond agree on. -/
def agreementForm : Nat → LinkForm := sized [(2, [1, 2, 3, 4]), (6, [5])]

/-- The data of a link made of several. -/
def bondForm (number : Nat) : LinkForm :=
  if number = 8 ∨ number = 31 then loose
  else if number = 23 then sequence agreementForm
  else
    sized
      [(1, [1, 6, 12, 13, 14, 16, 17, 21, 22, 27, 29, 30]), (2, [24, 25]),
       (4, [2, 3, 4, 5, 7, 9, 10, 11, 15, 18, 19, 20, 28]), (6, [26])] number

/-- The data of a link that shares hardware under an address of its own. -/
def sharingForm (number : Nat) : LinkForm :=
  if number = 5 then named .sharing
  else sized [(2, [2]), (4, [1, 3, 6, 7, 8, 9]), (6, [4])] number

/-- The data of a link that signs or encrypts. -/
def macsecForm : Nat → LinkForm :=
  sized [(1, [3, 6, 7, 8, 9, 10, 11, 12, 13, 15]), (2, [2]), (4, [5]), (8, [1, 4])]

/-- The data of a link with two members that send everything twice. -/
def hsrForm : Nat → LinkForm :=
  sized [(1, [3, 6, 7]), (2, [5]), (4, [1, 2]), (6, [4])]

/-- The other end of a pair of links: a head, which begins with its family, and its attributes. -/
def otherEnd : LinkForm :=
  headed 16 fun head => sequence (LinkForm.ofNumber (numberOf (head.take 1)))

/-- The data of a link with another end. -/
def pairForm (number : Nat) : LinkForm := if number = 1 then otherEnd else any

/-- The kinds of links whose data are attributes of any form. -/
def looseKinds : List String :=
  ["tun", "sit", "gre", "ip6gre", "gretap", "ip6gretap", "vti", "gtp"]

/-- The form of the data of a link, by its kind. -/
def dataForm : String → LinkForm
  | "vlan" => sequence vlanForm
  | "vxlan" => sequence vxlanForm
  | "bridge" => sequence bridgeForm
  | "bond" => sequence bondForm
  | "macvlan" => sequence sharingForm
  | "macvtap" => sequence sharingForm
  | "ipvlan" => sequence (sized [(2, [1, 2])])
  | "vrf" => sequence (sized [(4, [1])])
  | "xfrm" => sequence (sized [(4, [1, 2])])
  | "ipoib" => sequence (sized [(2, [1, 2, 3])])
  | "macsec" => sequence macsecForm
  | "hsr" => sequence hsrForm
  | "veth" => leading pairForm
  | kind => if kind ∈ looseKinds then loose else any

/-! ## Forms of the data for an owner -/

def bondMemberForm : Nat → LinkForm := sized [(1, [1, 2]), (2, [5]), (4, [3, 9])]

def bridgeMemberForm (number : Nat) : LinkForm :=
  if number = 13 ∨ number = 14 then record 8
  else
    sized
      [(1, [1, 4, 5, 6, 7, 8, 9, 10, 12, 19, 20, 25, 27, 28, 29, 30, 32, 33, 35, 36, 39, 40, 43]),
       (2, [2, 15, 16, 17, 18, 31]), (4, [3, 34, 37, 38, 41, 42, 44]), (8, [21, 22, 23])] number

/-- The form of the data for a link that the described one belongs to, by the kind of that one. -/
def memberForm : String → LinkForm
  | "bond" => sequence bondMemberForm
  | "bridge" => sequence bridgeMemberForm
  | _ => any

/-! ## Descriptions -/

/-- Something without which octets do not fit. -/
def required {α : Type} : Option α → Except Misfit α
  | some a => .ok a
  | none => .error .malformed

/-- Check the parts of a description in order, given the kinds that stand before them; the kind of
an owner is gone once it has served. -/
def describe (inside : LinkPart → List UInt8 → Except Misfit Unit) :
    Option String → Option String → List (Nat × List UInt8) → Except Misfit Unit
  | _, _, [] => .ok ()
  | kind, owner, (number, bytes) :: parts => do
    match number with
    | 1 => describe inside (some (← required (textOf? bytes))) owner parts
    | 2 =>
      (dataForm (← required kind)).check inside bytes
      describe inside kind owner parts
    | 3 =>
      demand kind.isSome
      describe inside kind owner parts
    | 4 => describe inside kind (some (← required (textOf? bytes))) parts
    | 5 =>
      (memberForm (← required owner)).check inside bytes
      describe inside kind none parts
    | _ => describe inside kind owner parts

/-- Check a part that can stand inside itself, as deep as given. -/
def checkPart : Nat → LinkPart → List UInt8 → Except Misfit Unit
  | 0, _, _ => .error .malformed
  | depth + 1, .software, bytes => do
    let (parts, whole) := entries bytes.length bytes
    describe (checkPart depth) none none parts
    demand whole
  | depth + 1, .sharing, bytes => (sequence sharingForm).check (checkPart depth) bytes

end NetRelocation.SoftwareLink
