import NetRelocation.Invalid
import NetRelocation.Json.Codec

/-!
# Hardware addresses

A link-layer address is a list of bytes, written as pairs of hexadecimal digits with colons between
them. At most thirty-two bytes can be read.
-/

namespace NetRelocation

/-- A link-layer address. -/
structure HardwareAddr where
  bytes : List UInt8
  deriving DecidableEq, Repr

namespace HardwareAddr

/-- The largest number of bytes of an address that is read. -/
def maxLength : Nat := 32

/-- Read one byte: a numeral of two bytes of text, which may start with a plus sign. -/
def byte? (cs : List Char) : Option UInt8 :=
  if Text.Utf8.byteLength cs = 2 then
    match Text.Numeral.readNat 16 256 Text.Numeral.hexDigit? cs with
    | .ok n => some (UInt8.ofNat n)
    | .error _ => none
  else none

def bytes? (cs : List Char) : Option (List UInt8) :=
  match (Text.splitChars ':' cs).mapM byte? with
  | some bytes => if bytes.length ≤ maxLength then some bytes else none
  | none => none

def parse (s : String) : Except Invalid HardwareAddr :=
  match bytes? s.toList with
  | some bytes => .ok ⟨bytes⟩
  | none => .error (.hardwareAddr s)

def display (addr : HardwareAddr) : String :=
  String.ofList (Text.joinChars ':' (addr.bytes.map Text.Numeral.hexByte))

/-- Addresses are written as strings. -/
def codec : Json.Codec HardwareAddr :=
  .parsed display fun s => (parse s).mapError Invalid.report

end HardwareAddr

end NetRelocation
