import NetRelocation.Text.Split
import NetRelocation.Text.Numeral

/-!
# IPv4 addresses

An address is written as four decimal numbers below 256 without leading zeros, with dots between
them.
-/

namespace NetRelocation

/-- An address of four octets. -/
structure IPv4 where
  a : UInt8
  b : UInt8
  c : UInt8
  d : UInt8
  deriving DecidableEq, Repr

namespace IPv4

/-- The value of one to three digits without a leading zero, if it fits an octet. -/
def octet? (cs : List Char) : Option UInt8 :=
  match cs with
  | [] => none
  | '0' :: _ :: _ => none
  | _ =>
    match Text.Numeral.fold 10 Text.Numeral.digit? 0 cs with
    | some n => if n < 256 then some (UInt8.ofNat n) else none
    | none => none

def ofChars? (cs : List Char) : Option IPv4 :=
  match Text.splitChars '.' cs with
  | [a, b, c, d] =>
    match octet? a, octet? b, octet? c, octet? d with
    | some a, some b, some c, some d => some ⟨a, b, c, d⟩
    | _, _, _, _ => none
  | _ => none

def octets (ip : IPv4) : List UInt8 := [ip.a, ip.b, ip.c, ip.d]

/-- The address as one number, the first octet leading. -/
def toNat (ip : IPv4) : Nat := ip.octets.foldl (fun n o => n * 256 + o.toNat) 0

def display (ip : IPv4) : String :=
  Text.join "." (ip.octets.map fun o => Text.Numeral.decimal o.toNat)

/-- The number of leading one bits of a mask in which no one bit follows a zero bit. -/
def maskLength? (ip : IPv4) : Option (Fin 33) :=
  (List.finRange 33).find? fun k => ip.toNat = Nat.pow 2 32 - Nat.pow 2 (32 - k.val)

end IPv4

end NetRelocation
