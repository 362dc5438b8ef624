/-!
# Numerals

Reading and writing of integers in decimal and hexadecimal. A signed or unsigned numeral is an
optional sign and at least one digit; leading zeros are allowed. A reader tells the empty text, a
character that is no digit, and a value outside the range apart (`Fault`).
-/

namespace NetRelocation.Text.Numeral

/-! ## Digits -/

/-- The value of a decimal digit. -/
def digit? (c : Char) : Option Nat :=
  if '0' ≤ c ∧ c ≤ '9' then some (c.toNat - 48) else none

/-- The value of a hexadecimal digit of either case. -/
def hexDigit? (c : Char) : Option Nat :=
  if '0' ≤ c ∧ c ≤ '9' then some (c.toNat - 48)
  else if 'a' ≤ c ∧ c ≤ 'f' then some (c.toNat - 87)
  else if 'A' ≤ c ∧ c ≤ 'F' then some (c.toNat - 55)
  else none

/-- The lower-case hexadecimal digit of a value below sixteen. -/
def hexDigit (n : Nat) : Char :=
  if n < 10 then Char.ofNat (48 + n) else Char.ofNat (87 + n)

/-- The value of a string of digits in a base, given the value of the digits before it. -/
def fold (base : Nat) (digit : Char → Option Nat) : Nat → List Char → Option Nat
  | acc, [] => some acc
  | acc, c :: cs =>
    match digit c with
    | some d => fold base digit (acc * base + d) cs
    | none => none

/-! ## Ranges -/

/-- Why a text is not a numeral of the wanted range. -/
inductive Fault where
  | empty
  | invalidDigit
  | tooLarge
  | tooSmall
  deriving DecidableEq, Repr

def Fault.message : Fault → String
  | .empty => "cannot parse integer from empty string"
  | .invalidDigit => "invalid digit found in string"
  | .tooLarge => "number too large to fit in target type"
  | .tooSmall => "number too small to fit in target type"

/-- The first character that counts in an unsigned numeral below `limit`: digits are read from the
left and the first that is none, or that passes the limit, decides the fault. -/
def readDigits (base limit : Nat) (digit : Char → Option Nat) : Nat → List Char → Except Fault Nat
  | acc, [] => .ok acc
  | acc, c :: cs =>
    match digit c with
    | none => .error .invalidDigit
    | some d =>
      let next := acc * base + d
      if next < limit then readDigits base limit digit next cs else .error .tooLarge

/-- Read an unsigned numeral below `limit`; a plus sign is allowed, a lone sign is not. -/
def readNat (base limit : Nat) (digit : Char → Option Nat) : List Char → Except Fault Nat
  | [] => .error .empty
  | ['+'] => .error .invalidDigit
  | ['-'] => .error .invalidDigit
  | '+' :: cs => readDigits base limit digit 0 cs
  | cs => readDigits base limit digit 0 cs

/-- Read a signed decimal numeral with `-limit ≤ n < limit`. -/
def readInt (limit : Nat) : List Char → Except Fault Int
  | [] => .error .empty
  | ['+'] => .error .invalidDigit
  | ['-'] => .error .invalidDigit
  | '-' :: cs =>
    match readDigits 10 (limit + 1) digit? 0 cs with
    | .ok n => .ok (-(n : Int))
    | .error .tooLarge => .error .tooSmall
    | .error e => .error e
  | '+' :: cs => (readDigits 10 limit digit? 0 cs).map Int.ofNat
  | cs => (readDigits 10 limit digit? 0 cs).map Int.ofNat

/-- Read a decimal numeral of eight bits. -/
def readUInt8 (cs : List Char) : Except Fault UInt8 :=
  (readNat 10 UInt8.size digit? cs).map UInt8.ofNat

/-- Read a decimal numeral of thirty-two bits. -/
def readUInt32 (cs : List Char) : Except Fault UInt32 :=
  (readNat 10 UInt32.size digit? cs).map UInt32.ofNat

/-- Read a decimal numeral of sixty-four bits. -/
def readUInt64 (cs : List Char) : Except Fault UInt64 :=
  (readNat 10 UInt64.size digit? cs).map UInt64.ofNat

/-- Read a signed decimal numeral of thirty-two bits. -/
def readInt32 (cs : List Char) : Except Fault Int32 := (readInt (Nat.pow 2 31) cs).map Int32.ofInt

/-! ## Writing -/

/-- The decimal digits of a number, at least one. -/
def decimalDigits (n : Nat) : List Char := Nat.toDigits 10 n

def decimal (n : Nat) : String := String.ofList (decimalDigits n)

def signed (n : Int) : String := if n < 0 then "-" ++ decimal n.natAbs else decimal n.natAbs

/-- The two hexadecimal digits of a byte. -/
def hexByte (b : UInt8) : List Char := [hexDigit (b.toNat / 16), hexDigit (b.toNat % 16)]

/-- The hexadecimal digits of a number without leading zeros, at least one. -/
def hexDigits (n : Nat) : List Char := Nat.toDigits 16 n

/-- Bytes as pairs of hexadecimal digits. -/
def hexBytes (bs : List UInt8) : String := String.ofList (bs.flatMap hexByte)

/-- The bytes of pairs of hexadecimal digits. -/
def readHexBytes : List Char → Option (List UInt8)
  | [] => some []
  | hi :: lo :: rest =>
    match hexDigit? hi, hexDigit? lo, readHexBytes rest with
    | some h, some l, some bs => some (UInt8.ofNat (h * 16 + l) :: bs)
    | _, _, _ => none
  | [_] => none

end NetRelocation.Text.Numeral
