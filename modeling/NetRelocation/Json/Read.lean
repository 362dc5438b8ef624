import NetRelocation.Json.Value
import NetRelocation.Text.Utf8

/-!
# Reading JSON text

Readers take the text that is left and return what they read with the rest. The first problem in
text order is the one reported. A container costs one level of depth, and there are
`maxDepth` of them.

`readMembers` and `readItems` walk objects and arrays with a step for each entry; values, records
and tagged unions are all read through them. `Value.read` builds a tree, `skipValue` passes over a
value of which only the grammar is checked.
-/

namespace NetRelocation.Json

/-- What a reader gives: a result and the text after it. -/
abbrev Step (α : Type) := Except Fault (α × List Char)

/-- How deep containers may be nested. -/
def maxDepth : Nat := 127

/-- The blanks of JSON: space, tab, line feed and carriage return. -/
def isSpace (c : Char) : Bool := c = ' ' || c = '\n' || c = '\t' || c = '\r'

/-- The text from its first character that is no blank. -/
def skipSpace (cs : List Char) : List Char := cs.dropWhile isSpace

/-! ## Words -/

/-- Read the rest of a literal word. -/
def readWord : List Char → List Char → Except Fault (List Char)
  | [], cs => .ok cs
  | _ :: _, [] => .error (.unfinished .value)
  | w :: ws, c :: cs => if w = c then readWord ws cs else .error (.malformed .expectedIdent)

/-! ## Strings -/

/-- The value of four hexadecimal digits. -/
def hex4? (a b c d : Char) : Option Nat :=
  match Text.Numeral.hexDigit? a, Text.Numeral.hexDigit? b, Text.Numeral.hexDigit? c,
    Text.Numeral.hexDigit? d with
  | some a, some b, some c, some d => some (((a * 16 + b) * 16 + c) * 16 + d)
  | _, _, _, _ => none

/-- Read the four digits of a numeric escape. A text with fewer than four bytes left is unfinished,
whatever they are. -/
def readHex4 : List Char → Step Nat
  | a :: b :: c :: d :: rest =>
    match hex4? a b c d with
    | some n => .ok (n, rest)
    | none => .error (.malformed .invalidEscape)
  | cs =>
    if 4 ≤ Text.Utf8.byteLength cs then .error (.malformed .invalidEscape)
    else .error (.unfinished .string)

/-- The character of a one-letter escape. -/
def shortEscape? (c : Char) : Option Char :=
  if c = '"' then some '"'
  else if c = '\\' then some '\\'
  else if c = '/' then some '/'
  else if c = 'b' then some (Char.ofNat 8)
  else if c = 'f' then some (Char.ofNat 12)
  else if c = 'n' then some '\n'
  else if c = 'r' then some '\r'
  else if c = 't' then some '\t'
  else none

/-- Read the second half of a surrogate pair. -/
def readLowSurrogate (high : Nat) : List Char → Step Char
  | [] => .error (.unfinished .string)
  | '\\' :: [] => .error (.unfinished .string)
  | '\\' :: 'u' :: cs =>
    match readHex4 cs with
    | .error e => .error e
    | .ok (low, rest) =>
      if 0xDC00 ≤ low ∧ low ≤ 0xDFFF then
        .ok (Char.ofNat ((high - 0xD800) * 1024 + (low - 0xDC00) + 0x10000), rest)
      else .error (.malformed .loneSurrogate)
  | _ => .error (.malformed .unexpectedEndOfHexEscape)

/-- Read what follows a backslash. -/
def readEscape : List Char → Step Char
  | [] => .error (.unfinished .string)
  | 'u' :: cs =>
    match readHex4 cs with
    | .error e => .error e
    | .ok (n, rest) =>
      if 0xDC00 ≤ n ∧ n ≤ 0xDFFF then .error (.malformed .loneSurrogate)
      else if 0xD800 ≤ n ∧ n ≤ 0xDBFF then readLowSurrogate n rest
      else .ok (Char.ofNat n, rest)
  | c :: cs =>
    match shortEscape? c with
    | some x => .ok (x, cs)
    | none => .error (.malformed .invalidEscape)

/-- Read characters up to the closing quote. -/
def readChars : Nat → List Char → Step (List Char)
  | 0, _ => .error (.unfinished .string)
  | _ + 1, [] => .error (.unfinished .string)
  | fuel + 1, c :: cs =>
    if c = '"' then .ok ([], cs)
    else if c = '\\' then
      match readEscape cs with
      | .error e => .error e
      | .ok (x, rest) => (readChars fuel rest).map fun r => (x :: r.1, r.2)
    else if c.toNat < 0x20 then .error (.malformed .controlCharacter)
    else (readChars fuel cs).map fun r => (c :: r.1, r.2)

/-- Read a string after its opening quote. -/
def readString (cs : List Char) : Step String :=
  (readChars (cs.length + 1) cs).map fun r => (String.ofList r.1, r.2)

/-- Pass over a string after its opening quote; surrogates need not be paired. -/
def skipString : Nat → List Char → Except Fault (List Char)
  | 0, _ => .error (.unfinished .string)
  | _ + 1, [] => .error (.unfinished .string)
  | fuel + 1, c :: cs =>
    if c = '"' then .ok cs
    else if c = '\\' then
      match cs with
      | [] => .error (.unfinished .string)
      | 'u' :: cs =>
        match readHex4 cs with
        | .error e => .error e
        | .ok (_, rest) => skipString fuel rest
      | x :: cs =>
        match shortEscape? x with
        | some _ => skipString fuel cs
        | none => .error (.malformed .invalidEscape)
    else if c.toNat < 0x20 then .error (.malformed .controlCharacter)
    else skipString fuel cs

/-! ## Numbers -/

inductive Number where
  | integer (n : Int)
  | float (x : Float)

/-- How a number is named in messages. -/
def Number.found : Number → Found
  | .integer n => .integer n
  | .float x => .float x

def Number.toValue : Number → Value
  | .integer n => .integer n
  | .float x => .float x

/-- The value of digits as long as it fits 64 bits, and the digits that are left. -/
def absorb (acc : Nat) : List Char → Nat × List Char
  | [] => (acc, [])
  | c :: cs =>
    let next := acc * 10 + (c.toNat - 48)
    if next < UInt64.size then absorb next cs else (acc, c :: cs)

/-- `10 ^ n` as a double, for `n ≤ 308`. -/
def pow10 (n : Nat) : Float := Float.ofScientific 1 false n

/-- `significand · 10 ^ exponent` as a double, by one rounded product or a few rounded quotients;
`none` when the result is too large. -/
def scale : Nat → Float → Int → Option Float
  | 0, x, _ => some x
  | fuel + 1, x, e =>
    if e.natAbs ≤ 308 then
      if 0 ≤ e then
        let y := x * pow10 e.natAbs
        if y.isInf then none else some y
      else some (x / pow10 e.natAbs)
    else if x == 0 then some x
    else if 0 ≤ e then none
    else scale fuel (x / pow10 308) (e + 308)

/-- The double with a sign, a significand below `2 ^ 64` and a decimal exponent. -/
def float? (negative : Bool) (significand : Nat) (exponent : Int) : Except Fault Number :=
  match scale 8 (UInt64.ofNat significand).toFloat exponent with
  | some x => .ok (.float (if negative then -x else x))
  | none => .error (.malformed .numberOutOfRange)

/-- Keep an exponent within 32 bits. -/
def clamp (e : Int) : Int := max Int32.minValue.toInt (min e Int32.maxValue.toInt)

/-- Read the exponent of a number after its `e`. -/
def readExponent (negative : Bool) (significand : Nat) (start : Int) (cs : List Char) :
    Step Number :=
  let (down, cs) :=
    match cs with
    | '+' :: rest => (false, rest)
    | '-' :: rest => (true, rest)
    | _ => (false, cs)
  let digits := cs.takeWhile Char.isDigit
  let rest := cs.dropWhile Char.isDigit
  match digits, rest with
  | [], [] => .error (.unfinished .value)
  | [], _ :: _ => .error (.malformed .invalidNumber)
  | _ :: _, _ =>
    let n := (Text.Numeral.fold 10 Text.Numeral.digit? 0 digits).getD 0
    if Nat.pow 2 31 ≤ n then
      if significand ≠ 0 ∧ ¬down then .error (.malformed .numberOutOfRange)
      else .ok (.float (if negative then -0 else 0), rest)
    else
      let e := clamp (if down then start - n else start + n)
      (float? negative significand e).map (·, rest)

/-- Read the fraction of a number after its point. -/
def readFraction (negative : Bool) (significand : Nat) (start : Int) (cs : List Char) :
    Step Number :=
  let digits := cs.takeWhile Char.isDigit
  let rest := cs.dropWhile Char.isDigit
  match digits, rest with
  | [], [] => .error (.unfinished .value)
  | [], _ :: _ => .error (.malformed .invalidNumber)
  | _ :: _, _ =>
    let (n, ignored) := absorb significand digits
    let e := start - ((digits.length - ignored.length : Nat) : Int)
    match rest with
    | 'e' :: cs => readExponent negative n e cs
    | 'E' :: cs => readExponent negative n e cs
    | _ => (float? negative n e).map (·, rest)

/-- An integer as a number: minus zero and negative numbers of more than 64 bits are doubles. -/
def integer (negative : Bool) (n : Nat) : Number :=
  if negative then
    if n = 0 ∨ Nat.pow 2 63 < n then .float (-(UInt64.ofNat n).toFloat) else .integer (-(n : Int))
  else .integer n

/-- Read a number after its minus sign. -/
def readNumber (negative : Bool) (cs : List Char) : Step Number :=
  let digits := cs.takeWhile Char.isDigit
  let rest := cs.dropWhile Char.isDigit
  match digits, rest with
  | [], [] => .error (.unfinished .value)
  | [], _ :: _ => .error (.malformed .invalidNumber)
  | '0' :: _ :: _, _ => .error (.malformed .invalidNumber)
  | _ :: _, _ =>
    let (n, long) := absorb 0 digits
    let e : Int := long.length
    match rest with
    | '.' :: cs => readFraction negative n e cs
    | 'e' :: cs => readExponent negative n e cs
    | 'E' :: cs => readExponent negative n e cs
    | _ =>
      if long.isEmpty then .ok (integer negative n, rest)
      else (float? negative n e).map (·, rest)

/-- Pass over the exponent of a number after its `e`. -/
def skipExponent (cs : List Char) : Except Fault (List Char) :=
  let cs :=
    match cs with
    | '+' :: rest => rest
    | '-' :: rest => rest
    | _ => cs
  if (cs.takeWhile Char.isDigit).isEmpty then .error (.malformed .invalidNumber)
  else .ok (cs.dropWhile Char.isDigit)

/-- Pass over a number after its minus sign. -/
def skipNumber (cs : List Char) : Except Fault (List Char) :=
  let digits := cs.takeWhile Char.isDigit
  let rest := cs.dropWhile Char.isDigit
  match digits with
  | [] => .error (.malformed .invalidNumber)
  | '0' :: _ :: _ => .error (.malformed .invalidNumber)
  | _ =>
    match rest with
    | '.' :: cs =>
      let rest := cs.dropWhile Char.isDigit
      if (cs.takeWhile Char.isDigit).isEmpty then .error (.malformed .invalidNumber)
      else
        match rest with
        | 'e' :: cs => skipExponent cs
        | 'E' :: cs => skipExponent cs
        | _ => .ok rest
    | 'e' :: cs => skipExponent cs
    | 'E' :: cs => skipExponent cs
    | _ => .ok rest

/-! ## Entries of containers -/

/-- Go to the next element of an array, if there is one. -/
def nextItem (first : Bool) (cs : List Char) : Except Fault (Option (List Char)) :=
  match skipSpace cs with
  | [] => .error (.unfinished .list)
  | ']' :: _ => .ok none
  | c :: rest =>
    if first then .ok (some (c :: rest))
    else if c = ',' then
      match skipSpace rest with
      | [] => .error (.unfinished .value)
      | ']' :: _ => .error (.malformed .trailingComma)
      | rest => .ok (some rest)
    else .error (.malformed .expectedListCommaOrEnd)

/-- Read the bracket that closes an array. -/
def endItems (cs : List Char) : Except Fault (List Char) :=
  match skipSpace cs with
  | [] => .error (.unfinished .list)
  | ']' :: rest => .ok rest
  | ',' :: rest =>
    match skipSpace rest with
    | ']' :: _ => .error (.malformed .trailingComma)
    | _ => .error (.malformed .trailingCharacters)
  | _ => .error (.malformed .trailingCharacters)

/-- Go to the next key of an object, past its opening quote, if there is one. -/
def nextKey (first : Bool) (cs : List Char) : Except Fault (Option (List Char)) :=
  match skipSpace cs with
  | [] => .error (.unfinished .object)
  | '}' :: _ => .ok none
  | c :: rest =>
    if first then
      if c = '"' then .ok (some rest) else .error (.malformed .keyMustBeString)
    else if c = ',' then
      match skipSpace rest with
      | [] => .error (.unfinished .value)
      | '"' :: rest => .ok (some rest)
      | '}' :: _ => .error (.malformed .trailingComma)
      | _ => .error (.malformed .keyMustBeString)
    else .error (.malformed .expectedObjectCommaOrEnd)

/-- Read the brace that closes an object. -/
def endMembers (cs : List Char) : Except Fault (List Char) :=
  match skipSpace cs with
  | [] => .error (.unfinished .object)
  | '}' :: rest => .ok rest
  | ',' :: _ => .error (.malformed .trailingComma)
  | _ => .error (.malformed .trailingCharacters)

/-- Read the colon after a key. -/
def readColon (cs : List Char) : Except Fault (List Char) :=
  match skipSpace cs with
  | [] => .error (.unfinished .object)
  | ':' :: rest => .ok rest
  | _ => .error (.malformed .expectedColon)

/-- Read the elements of an array with a step for each, up to the closing bracket. -/
def readItems {σ : Type} (item : σ → List Char → Step σ) :
    Nat → Bool → σ → List Char → Step σ
  | 0, _, _, _ => .error (.unfinished .list)
  | fuel + 1, first, s, cs =>
    match nextItem first cs with
    | .error e => .error e
    | .ok none => .ok (s, cs)
    | .ok (some cs) =>
      match item s cs with
      | .error e => .error e
      | .ok (s, cs) => readItems item fuel false s cs

/-- Read the members of an object with a step for each, up to the closing brace. The step gets the
key and the text after it, before the colon. -/
def readMembers {σ : Type} (member : σ → String → List Char → Step σ) :
    Nat → Bool → σ → List Char → Step σ
  | 0, _, _, _ => .error (.unfinished .object)
  | fuel + 1, first, s, cs =>
    match nextKey first cs with
    | .error e => .error e
    | .ok none => .ok (s, cs)
    | .ok (some cs) =>
      match readString cs with
      | .error e => .error e
      | .ok (key, cs) =>
        match member s key cs with
        | .error e => .error e
        | .ok (s, cs) => readMembers member fuel false s cs

/-- Read a whole array after its bracket. -/
def readArray {σ : Type} (item : σ → List Char → Step σ) (s : σ) (cs : List Char) : Step σ :=
  match readItems item (cs.length + 1) true s cs with
  | .error e => .error e
  | .ok (s, cs) => (endItems cs).map (s, ·)

/-- Read a whole object after its brace. -/
def readObject {σ : Type} (member : σ → String → List Char → Step σ) (s : σ) (cs : List Char) :
    Step σ :=
  match readMembers member (cs.length + 1) true s cs with
  | .error e => .error e
  | .ok (s, cs) => (endMembers cs).map (s, ·)

/-! ## Trees -/

/-- Read a value as a tree, with so many levels of containers left. -/
def Value.read : Nat → List Char → Step Value
  | depth, cs =>
    match skipSpace cs with
    | [] => .error (.unfinished .value)
    | 'n' :: cs => (readWord ['u', 'l', 'l'] cs).map (.null, ·)
    | 't' :: cs => (readWord ['r', 'u', 'e'] cs).map (.bool true, ·)
    | 'f' :: cs => (readWord ['a', 'l', 's', 'e'] cs).map (.bool false, ·)
    | '"' :: cs => (readString cs).map fun r => (.string r.1, r.2)
    | '-' :: cs => (readNumber true cs).map fun r => (r.1.toValue, r.2)
    | '[' :: cs =>
      match depth with
      | 0 => .error (.malformed .recursionLimit)
      | depth + 1 =>
        (readArray (fun items cs =>
          (Value.read depth cs).map fun r => (r.1 :: items, r.2)) [] cs).map
          fun r => (.array r.1.reverse, r.2)
    | '{' :: cs =>
      match depth with
      | 0 => .error (.malformed .recursionLimit)
      | depth + 1 =>
        (readObject (fun members key cs =>
          match readColon cs with
          | .error e => .error e
          | .ok cs => (Value.read depth cs).map fun r => ((key, r.1) :: members, r.2)) [] cs).map
          fun r => (.object r.1.reverse, r.2)
    | c :: cs =>
      if c.isDigit then (readNumber false (c :: cs)).map fun r => (r.1.toValue, r.2)
      else .error (.malformed .expectedValue)

/-- Nothing but blanks may follow a value. -/
def finish {α : Type} : α × List Char → Except Fault α
  | (a, rest) =>
    match skipSpace rest with
    | [] => .ok a
    | _ => .error (.malformed .trailingCharacters)

def Value.parse (s : String) : Except Fault Value :=
  match Value.read maxDepth s.toList with
  | .error e => .error e
  | .ok r => finish r

/-! ## Values that are passed over -/

/-- A container that is open while values are passed over. -/
inductive Frame where
  | list
  | object
  deriving DecidableEq

/-- Pass over a scalar, or open a container. -/
def skipScalar (cs : List Char) : Except Fault (Option Frame × List Char) :=
  match skipSpace cs with
  | [] => .error (.unfinished .value)
  | 'n' :: cs => (readWord ['u', 'l', 'l'] cs).map (none, ·)
  | 't' :: cs => (readWord ['r', 'u', 'e'] cs).map (none, ·)
  | 'f' :: cs => (readWord ['a', 'l', 's', 'e'] cs).map (none, ·)
  | '"' :: cs => (skipString (cs.length + 1) cs).map (none, ·)
  | '-' :: cs => (skipNumber cs).map (none, ·)
  | '[' :: cs => .ok (some .list, cs)
  | '{' :: cs => .ok (some .object, cs)
  | c :: cs =>
    if c.isDigit then (skipNumber (c :: cs)).map (none, ·) else .error (.malformed .expectedValue)

/-- Close containers and pass a comma: the containers that stay open and the text after the comma.
Without open containers the value is complete. -/
def skipClosers : Nat → Bool → List Frame → List Char → Except Fault (List Frame × List Char)
  | 0, _, _, _ => .error (.unfinished .value)
  | _ + 1, _, [], cs => .ok ([], cs)
  | fuel + 1, comma, frame :: frames, cs =>
    match skipSpace cs, frame with
    | [], .list => .error (.unfinished .list)
    | [], .object => .error (.unfinished .object)
    | ']' :: rest, .list => skipClosers fuel true frames rest
    | '}' :: rest, .object => skipClosers fuel true frames rest
    | c :: rest, frame =>
      if comma then
        if c = ',' then .ok (frame :: frames, rest)
        else
          match frame with
          | .list => .error (.malformed .expectedListCommaOrEnd)
          | .object => .error (.malformed .expectedObjectCommaOrEnd)
      else .ok (frame :: frames, c :: rest)

/-- Pass over the key and colon of a member. -/
def skipKey (cs : List Char) : Except Fault (List Char) :=
  match skipSpace cs with
  | [] => .error (.unfinished .object)
  | '"' :: cs =>
    match skipString (cs.length + 1) cs with
    | .error e => .error e
    | .ok cs => readColon cs
  | _ => .error (.malformed .keyMustBeString)

/-- Pass over values until no container is open. -/
def skipFrom : Nat → List Frame → List Char → Except Fault (List Char)
  | 0, _, _ => .error (.unfinished .value)
  | fuel + 1, frames, cs =>
    match skipScalar cs with
    | .error e => .error e
    | .ok (opened, cs) =>
      let open' := opened.toList ++ frames
      match skipClosers (cs.length + open'.length + 1) opened.isNone open' cs with
      | .error e => .error e
      | .ok ([], cs) => .ok cs
      | .ok (.list :: frames, cs) => skipFrom fuel (.list :: frames) cs
      | .ok (.object :: frames, cs) =>
        match skipKey cs with
        | .error e => .error e
        | .ok cs => skipFrom fuel (.object :: frames) cs

/-- Pass over one value of any depth. -/
def skipValue (cs : List Char) : Except Fault (List Char) := skipFrom (cs.length + 1) [] cs

end NetRelocation.Json
