import NetRelocation.Address.IPv6
import NetRelocation.Json.Codec

/-!
# Addresses of networks

An interface gets an address together with the length of its network part. The length follows a
slash; for IPv4 it may be given as a mask instead. Without it all bits count.
-/

namespace NetRelocation

/-- An address with the number of bits of its network part. -/
inductive Network where
  | v4 (address : IPv4) (length : Fin 33)
  | v6 (address : IPv6) (length : Fin 129)
  deriving DecidableEq

namespace Network

/-- The text before the first slash and the one after it, which must have none. -/
def cutAtSlash? (cs : List Char) : Option (List Char × Option (List Char)) :=
  match Text.splitChars '/' cs with
  | [address] => some (address, none)
  | [address, length] => some (address, some length)
  | _ => none

/-- Read a length up to `max`. -/
def length? (max : Nat) (cs : List Char) : Option (Fin (max + 1)) :=
  match Text.Numeral.readUInt8 cs with
  | .ok n => if h : n.toNat < max + 1 then some ⟨n.toNat, h⟩ else none
  | .error _ => none

/-- Read an IPv4 address with an optional length or mask. -/
def readV4? (address : List Char) (length : Option (List Char)) : Option Network :=
  match IPv4.ofChars? address with
  | none => none
  | some ip =>
    match length with
    | none => some (.v4 ip 32)
    | some cs =>
      match IPv4.ofChars? cs with
      | some mask => mask.maskLength?.map (.v4 ip)
      | none => (length? 32 cs).map (.v4 ip)

/-- Read an IPv6 address with an optional length. -/
def readV6? (address : List Char) (length : Option (List Char)) : Option Network :=
  match IPv6.ofChars? address with
  | none => none
  | some ip =>
    match length with
    | none => some (.v6 ip 128)
    | some cs => (length? 128 cs).map (.v6 ip)

/-- Read an address of either kind. -/
def ofString? (s : String) : Option Network :=
  match cutAtSlash? s.toList with
  | none => none
  | some (address, length) => (readV4? address length).or (readV6? address length)

/-- Read an address, or say that the text is none. -/
def parse (s : String) : Except String Network :=
  match ofString? s with
  | some net => .ok net
  | none => .error ("invalid address: " ++ s)

/-- The address without its length. -/
def host : Network → String
  | v4 ip _ => ip.display
  | v6 ip _ => ip.display

/-- The number of bits of the network part. -/
def bits : Network → Nat
  | v4 _ length => length
  | v6 _ length => length

/-- Write an address with its length. -/
def display (net : Network) : String := net.host ++ "/" ++ Text.Numeral.decimal net.bits

/-- Whether an address stands for a group of hosts. -/
def isGroup : Network → Bool
  | v4 ip _ => ip.a / 16 == 14
  | v6 ip _ => ip.groups.head?.any fun group => group / 256 == 255

/-- The address that an interface gets as its own, with its length. The address of a group is no
interface's own, so that only the length is left. -/
def ownDisplay (net : Network) : String :=
  (if net.isGroup then "" else net.host) ++ "/" ++ Text.Numeral.decimal net.bits

/-- Addresses are written as strings. -/
def codec : Json.Codec Network := .parsed display parse

end Network

end NetRelocation
