import NetRelocation.Address.IPv4

/-!
# IPv6 addresses

An address is eight groups of one to four hexadecimal digits with colons between them. One run of
zero groups may be left out between two colons, and the last two groups may be written as an IPv4
address.

An address is displayed with the first of its longest runs of at least two zero groups left out.
-/

namespace NetRelocation

/-- An address of eight groups of sixteen bits. -/
structure IPv6 where
  groups : List UInt16
  size_eq : groups.length = 8
  deriving DecidableEq

namespace IPv6

/-! ## Reading -/

/-- The value of one to four hexadecimal digits. -/
def group? (cs : List Char) : Option UInt16 :=
  if cs.isEmpty ∨ 4 < cs.length then none
  else (Text.Numeral.fold 16 Text.Numeral.hexDigit? 0 cs).map UInt16.ofNat

/-- The two groups of an embedded address. -/
def embedded (ip : IPv4) : List UInt16 :=
  [UInt16.ofNat (ip.a.toNat * 256 + ip.b.toNat), UInt16.ofNat (ip.c.toNat * 256 + ip.d.toNat)]

/-- The groups of pieces; the last piece may be an embedded address. -/
def groupsOfPieces? : List (List Char) → Option (List UInt16)
  | [] => some []
  | [last] =>
    match IPv4.ofChars? last with
    | some ip => some (embedded ip)
    | none => (group? last).map ([·])
  | piece :: pieces =>
    match group? piece, groupsOfPieces? pieces with
    | some g, some gs => some (g :: gs)
    | _, _ => none

/-- The groups of a text between colons, none for the empty text. -/
def groups? (cs : List Char) : Option (List UInt16) :=
  if cs.isEmpty then some [] else groupsOfPieces? (Text.splitChars ':' cs)

/-- The texts before and after the first double colon. -/
def cutAtGap : List Char → Option (List Char × List Char)
  | ':' :: ':' :: rest => some ([], rest)
  | c :: cs => (cutAtGap cs).map fun p => (c :: p.1, p.2)
  | [] => none

def ofGroups? (gs : List UInt16) : Option IPv6 :=
  if h : gs.length = 8 then some ⟨gs, h⟩ else none

def ofChars? (cs : List Char) : Option IPv6 :=
  match cutAtGap cs with
  | none => (groups? cs).bind ofGroups?
  | some (head, tail) =>
    if head.contains '.' then none
    else
      match groups? head, groups? tail with
      | some hs, some ts =>
        if hs.length + ts.length ≤ 7 then
          ofGroups? (hs ++ List.replicate (8 - (hs.length + ts.length)) 0 ++ ts)
        else none
      | _, _ => none

/-! ## Writing -/

/-- The number of zero groups that a list starts with. -/
def zeros (gs : List UInt16) : Nat := (gs.takeWhile (· = 0)).length

/-- Start and length of the first of the longest runs of zero groups from a position on, if it is
longer than `best`. -/
def longestRun (best : Nat × Nat) : Nat → List UInt16 → Nat × Nat
  | _, [] => best
  | i, g :: gs =>
    longestRun (if best.2 < zeros (g :: gs) then (i, zeros (g :: gs)) else best) (i + 1) gs

/-- Groups in hexadecimal with colons between them. -/
def displayGroups (gs : List UInt16) : String :=
  Text.join ":" (gs.map fun g => String.ofList (Text.Numeral.hexDigits g.toNat))

def display (ip : IPv6) : String :=
  match ip.groups with
  | [0, 0, 0, 0, 0, 0xFFFF, g, h] =>
    "::ffff:" ++ IPv4.display
      ⟨UInt8.ofNat (g.toNat / 256), UInt8.ofNat (g.toNat % 256), UInt8.ofNat (h.toNat / 256),
        UInt8.ofNat (h.toNat % 256)⟩
  | gs =>
    let (start, size) := longestRun (0, 0) 0 gs
    if 1 < size then displayGroups (gs.take start) ++ "::" ++ displayGroups (gs.drop (start + size))
    else displayGroups gs

end IPv6

end NetRelocation
