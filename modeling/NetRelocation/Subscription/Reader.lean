/-!
# Reading lines

Bytes are taken from a feed in portions and cut into lines. A reader holds the portion that has not
been looked at and the beginning of an unfinished line (`LineBuffer`); the reader of a file also
knows how many bytes it has taken (`FileReader`). `FileReader.step` is one step on a file with the
given content, which may be another one at each step.
-/

namespace NetRelocation

/-- The byte that ends a line. -/
def newline : UInt8 := 10

/-- The largest portion that is taken at once. -/
def portion : Nat := 8192

/-- The bytes up to the first newline, the newline included, and the bytes after it. -/
def cutLine : List UInt8 → Option (List UInt8 × List UInt8)
  | [] => none
  | b :: bs =>
    if b = newline then some ([b], bs)
    else (cutLine bs).map fun (line, rest) => (b :: line, rest)

/-! ## Lines of portions -/

/-- Bytes that were taken and have not become a line. -/
structure LineBuffer where
  /-- The beginning of a line. -/
  line : List UInt8
  /-- What has not been looked at. -/
  ahead : List UInt8
  deriving DecidableEq, Repr

namespace LineBuffer

/-- Nothing was taken. -/
def empty : LineBuffer := ⟨[], []⟩

def next? (b : LineBuffer) : Option (List UInt8 × LineBuffer) :=
  (cutLine b.ahead).map fun (line, rest) => (b.line ++ line, ⟨[], rest⟩)

/-- Everything that was taken belongs to the line that has begun. -/
def absorb (b : LineBuffer) : LineBuffer := ⟨b.line ++ b.ahead, []⟩

/-- Take a portion. -/
def fill (b : LineBuffer) (bytes : List UInt8) : LineBuffer := { b.absorb with ahead := bytes }

end LineBuffer

/-! ## Lines of a file -/

/-- A reader of an open file. -/
structure FileReader where
  /-- The number of bytes taken, or passed over at the start. -/
  position : Nat
  buffer : LineBuffer
  deriving DecidableEq, Repr

inductive ReadStep where
  /-- A line is complete. -/
  | line (bytes : List UInt8) (next : FileReader)
  /-- A portion was taken. -/
  | filled (next : FileReader)
  /-- There is nothing to take. -/
  | idle (next : FileReader)
  deriving DecidableEq, Repr

namespace FileReader

/-- A reader that starts after so many bytes. -/
def startingAt (position : Nat) : FileReader := ⟨position, .empty⟩

/-- What can be taken from a file. -/
def available (r : FileReader) (content : List UInt8) : List UInt8 :=
  (content.drop r.position).take portion

def step (content : List UInt8) (r : FileReader) : ReadStep :=
  match r.buffer.next? with
  | some (line, buffer) => .line line { r with buffer := buffer }
  | none =>
    match r.available content with
    | [] => .idle { r with buffer := r.buffer.absorb }
    | bytes => .filled ⟨r.position + bytes.length, r.buffer.fill bytes⟩

end FileReader

/-! ## Lines of a stream -/

/-- The lines that a stream of portions completes, and the beginning of a line that is left. At most
the given number of steps is made. -/
def streamLines : Nat → LineBuffer → List (List UInt8) → List (List UInt8) × List UInt8
  | 0, b, _ => ([], b.line)
  | fuel + 1, b, portions =>
    match b.next? with
    | some (line, rest) =>
      let (lines, last) := streamLines fuel rest portions
      (line :: lines, last)
    | none =>
      match portions with
      | [] => ([], b.absorb.line)
      | bytes :: portions => streamLines fuel (b.fill bytes) portions

/-- The steps that suffice for a stream of portions. -/
def streamSteps (portions : List (List UInt8)) : Nat :=
  portions.flatten.length + portions.length + 1

def wholeLines (bytes : List UInt8) : List (List UInt8) :=
  (streamLines (streamSteps [bytes]) .empty [bytes]).1

end NetRelocation
