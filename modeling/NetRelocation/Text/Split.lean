import NetRelocation.Text.Class

/-!
# Splitting, trimming and joining

Text is cut at every occurrence of a separator, so a text with `n` separators has `n + 1`
pieces, and joining the pieces gives the text back (**`joinChars_splitChars`**).
-/

namespace NetRelocation.Text

/-! ## Pieces -/

/-- The pieces between separators; there is always at least one. -/
def splitChars (sep : Char) : List Char → List (List Char)
  | [] => [[]]
  | c :: cs =>
    if c = sep then [] :: splitChars sep cs
    else
      match splitChars sep cs with
      | [] => [[c]]
      | piece :: pieces => (c :: piece) :: pieces

/-- The pieces with a separator between neighbours. -/
def joinChars (sep : Char) : List (List Char) → List Char
  | [] => []
  | [piece] => piece
  | piece :: pieces => piece ++ sep :: joinChars sep pieces

/-- The pieces of a string between separators. -/
def split (sep : Char) (s : String) : List String := (splitChars sep s.toList).map String.ofList

/-- The strings with a separator between neighbours. -/
def join (sep : String) (pieces : List String) : String := sep.intercalate pieces

theorem splitChars_ne_nil (sep : Char) : (cs : List Char) → splitChars sep cs ≠ []
  | [] => by simp [splitChars]
  | c :: cs => by
    unfold splitChars
    split
    · simp
    · split <;> simp

theorem joinChars_cons_cons (sep c : Char) (piece : List Char) (pieces : List (List Char)) :
    joinChars sep ((c :: piece) :: pieces) = c :: joinChars sep (piece :: pieces) := by
  cases pieces <;> simp [joinChars]

theorem joinChars_splitChars (sep : Char) : (cs : List Char) →
    joinChars sep (splitChars sep cs) = cs
  | [] => rfl
  | c :: cs => by
    have ih := joinChars_splitChars sep cs
    unfold splitChars
    split
    · rename_i h
      subst h
      cases hs : splitChars c cs with
      | nil => exact absurd hs (splitChars_ne_nil c cs)
      | cons piece pieces => simp [joinChars, ← hs, ih]
    · cases hs : splitChars sep cs with
      | nil => exact absurd hs (splitChars_ne_nil sep cs)
      | cons piece pieces => simp only [joinChars_cons_cons, ← hs, ih]

/-! ## Trimming -/

/-- Drop blanks at both ends. -/
def trimChars (cs : List Char) : List Char :=
  ((cs.dropWhile isBlank).reverse.dropWhile isBlank).reverse

/-- A string without blanks at both ends. -/
def trim (s : String) : String := String.ofList (trimChars s.toList)

/-- A string without blanks at its end. -/
def trimEnd (s : String) : String :=
  String.ofList (s.toList.reverse.dropWhile isBlank).reverse

/-- The characters before the first empty line. -/
def beforeEmptyLine : List Char → List Char
  | '\n' :: '\n' :: _ => []
  | c :: cs => c :: beforeEmptyLine cs
  | [] => []

/-! ## Columns -/

/-- `n` copies of a character. -/
def replicate (n : Nat) (c : Char) : String := String.ofList (List.replicate n c)

/-- A string filled up with spaces on the right to `n` characters. -/
def padRight (n : Nat) (s : String) : String := s ++ replicate (n - s.length) ' '

/-- Whether the characters of `lead` start those of `s`. -/
def startsWith (lead s : String) : Bool := lead.toList.isPrefixOf s.toList

/-- Whether a string has nothing but blanks. -/
def isBlankText (s : String) : Bool := s.toList.all isBlank

end NetRelocation.Text
