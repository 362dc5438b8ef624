import NetRelocation.Text.Split
import NetRelocation.Text.Unprintable
import NetRelocation.Text.Numeral

/-!
# Quoted text

Text shown inside messages stands in double quotes. The quote and the backslash are escaped, tab,
line feed, carriage return and NUL have short forms, and every other character without a visible
form is shown by its number in braces.
-/

namespace NetRelocation.Text

/-- How a character is shown inside quotes. -/
def quotedChar (c : Char) : List Char :=
  if c = '"' then ['\\', '"']
  else if c = '\\' then ['\\', '\\']
  else if c = '\n' then ['\\', 'n']
  else if c = '\r' then ['\\', 'r']
  else if c = '\t' then ['\\', 't']
  else if c = Char.ofNat 0 then ['\\', '0']
  else if isUnprintable c then ['\\', 'u', '{'] ++ Numeral.hexDigits c.toNat ++ ['}']
  else [c]

def quoted (s : String) : String := String.ofList ('"' :: s.toList.flatMap quotedChar ++ ['"'])

/-- A list of strings in quotes, in brackets. -/
def quotedList (l : List String) : String := "[" ++ join ", " (l.map quoted) ++ "]"

/-- A string in quotes that may be missing. -/
def quotedOption : Option String → String
  | some s => "Some(" ++ quoted s ++ ")"
  | none => "None"

end NetRelocation.Text
