/-!
# Positions at the end of messages

A message may end with the line and the column of what it is about. `positioned?` takes such an
ending off.
-/

namespace NetRelocation.Text

/-- A message about a place in a text. -/
structure Positioned where
  message : String
  line : Nat
  column : Nat
  deriving DecidableEq, Repr

def numberOf (digits : List Char) : Nat :=
  digits.foldl (fun n d => 10 * n + (d.toNat - '0'.toNat)) 0

/-- Take a number and the word before it off the end of a text, which is given in reverse. -/
def lastNumber? (word backwards : List Char) : Option (Nat × List Char) :=
  let digits := backwards.takeWhile Char.isDigit
  let rest := backwards.drop digits.length
  if digits ≠ [] ∧ word.reverse.isPrefixOf rest then
    some (numberOf digits.reverse, rest.drop word.length)
  else none

/-- Take the position off the end of a message. -/
def positioned? (s : String) : Option Positioned :=
  match lastNumber? " column ".toList s.toList.reverse with
  | none => none
  | some (column, rest) =>
    match lastNumber? " at line ".toList rest with
    | none => none
    | some (line, rest) => some ⟨String.ofList rest.reverse, line, column⟩

end NetRelocation.Text
