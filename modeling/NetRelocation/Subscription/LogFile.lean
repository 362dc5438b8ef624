/-!
# A file that is written while it is read

The file under a name can be replaced, extended, cut and removed. A reader keeps the file that it
opened, even after another one stands under the name; files are numbered in the order in which they
came to be.
-/

namespace NetRelocation

/-- The file under a name and its predecessors. -/
structure LogFile where
  /-- The contents of all files, by number. -/
  contents : List (List UInt8)
  /-- The number of the file under the name. -/
  current : Option Nat
  deriving DecidableEq, Repr

namespace LogFile

def absent : LogFile := ⟨[], none⟩

def content (f : LogFile) (number : Nat) : List UInt8 := f.contents.getD number []

/-- Change the content of the file under the name; it is made if there is none. -/
def update (f : LogFile) (change : List UInt8 → List UInt8) : LogFile :=
  match f.current with
  | some n => { f with contents := f.contents.modify n change }
  | none => ⟨f.contents ++ [change []], some f.contents.length⟩

def write (f : LogFile) (bytes : List UInt8) : LogFile := f.update fun _ => bytes

def append (f : LogFile) (bytes : List UInt8) : LogFile := f.update (· ++ bytes)

/-- Cut or fill up with zeros to a length. -/
def truncate (f : LogFile) (length : Nat) : LogFile :=
  f.update fun bytes => (bytes ++ List.replicate (length - bytes.length) 0).take length

/-- Take the file away from under the name. -/
def remove (f : LogFile) : LogFile := { f with current := none }

end LogFile

end NetRelocation
