/-!
# UTF-8

Bytes are decoded one at a time. The decoder stands between characters or owes continuation
bytes, of which only the first has a range that depends on the leading byte. A byte that cannot
continue ends the unfinished character, which counts as one invalid part, and is read afresh.

`decodeLossy` puts the replacement character for each invalid part; `decode?` refuses them.
-/

namespace NetRelocation.Text.Utf8

/-- Where the decoder stands. -/
inductive State where
  /-- Between characters. -/
  | start
  /-- Inside a character: `owed + 1` bytes are missing, the bits so far are `bits`, and the next
  byte lies between `low` and `high`. -/
  | within (owed bits low high : Nat)
  deriving DecidableEq, Repr

/-- What one byte completes: a character, an invalid part (`none`), or nothing yet. -/
abbrev Output := List (Option Char)

/-- Read a byte between characters. -/
def first (b : Nat) : Output × State :=
  if b < 0x80 then ([some (Char.ofNat b)], .start)
  else if b < 0xC2 then ([none], .start)
  else if b < 0xE0 then ([], .within 0 (b - 0xC0) 0x80 0xBF)
  else if b = 0xE0 then ([], .within 1 0 0xA0 0xBF)
  else if b = 0xED then ([], .within 1 0xD 0x80 0x9F)
  else if b < 0xF0 then ([], .within 1 (b - 0xE0) 0x80 0xBF)
  else if b = 0xF0 then ([], .within 2 0 0x90 0xBF)
  else if b < 0xF4 then ([], .within 2 (b - 0xF0) 0x80 0xBF)
  else if b = 0xF4 then ([], .within 2 4 0x80 0x8F)
  else ([none], .start)

def step : State → Nat → Output × State
  | .start, b => first b
  | .within owed bits low high, b =>
    if low ≤ b ∧ b ≤ high then
      let bits := bits * 64 + (b - 0x80)
      match owed with
      | 0 => ([some (Char.ofNat bits)], .start)
      | owed + 1 => ([], .within owed bits 0x80 0xBF)
    else
      let (out, next) := first b
      (none :: out, next)

/-- Read all bytes from a state on. -/
def run : State → List UInt8 → Output
  | .start, [] => []
  | .within .., [] => [none]
  | s, b :: bs =>
    let (out, next) := step s b.toNat
    out ++ run next bs

/-- The text of bytes, with U+FFFD for each invalid part. -/
def decodeLossy (bs : List UInt8) : List Char := (run .start bs).map (·.getD (Char.ofNat 0xFFFD))

/-- The text of bytes that have no invalid part. -/
def decode? (bs : List UInt8) : Option (List Char) := (run .start bs).mapM id

def encodeChar (c : Char) : List UInt8 :=
  let n := c.toNat
  if n < 0x80 then [UInt8.ofNat n]
  else if n < 0x800 then [UInt8.ofNat (0xC0 + n / 64), UInt8.ofNat (0x80 + n % 64)]
  else if n < 0x10000 then
    [UInt8.ofNat (0xE0 + n / 4096), UInt8.ofNat (0x80 + n / 64 % 64), UInt8.ofNat (0x80 + n % 64)]
  else
    [UInt8.ofNat (0xF0 + n / 262144), UInt8.ofNat (0x80 + n / 4096 % 64),
      UInt8.ofNat (0x80 + n / 64 % 64), UInt8.ofNat (0x80 + n % 64)]

def encode (cs : List Char) : List UInt8 := cs.flatMap encodeChar

def byteLength (cs : List Char) : Nat := cs.foldl (fun n c => n + c.utf8Size) 0

end NetRelocation.Text.Utf8
