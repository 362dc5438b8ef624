import NetRelocation.Collection.SortedMap
import NetRelocation.Json.Fault

/-!
# JSON values and their text

A value keeps the members of an object in the order of the text. `Value.compact` writes a value
without spaces, `Value.pretty` with one member or element per line, and `Value.canonical` sorts
members by key and keeps the last of several members with one key.
-/

namespace NetRelocation.Json

/-- A JSON value; integers have 64 bits, all other numbers are doubles. -/
inductive Value where
  | null
  | bool (b : Bool)
  | integer (n : Int)
  | float (x : Float)
  | string (s : String)
  | array (items : List Value)
  | object (members : List (String × Value))

namespace Value

instance : Inhabited Value := ⟨.null⟩

/-- How a value is named in messages. -/
def found : Value → Found
  | .null => .null
  | .bool b => .bool b
  | .integer n => .integer n
  | .float x => .float x
  | .string s => .string s
  | .array _ => .sequence
  | .object _ => .map

/-! ## Text of strings -/

/-- How a character is written in a string. -/
def escapeChar (c : Char) : List Char :=
  if c = '"' then ['\\', '"']
  else if c = '\\' then ['\\', '\\']
  else if c = '\n' then ['\\', 'n']
  else if c = '\r' then ['\\', 'r']
  else if c = '\t' then ['\\', 't']
  else if c.toNat = 8 then ['\\', 'b']
  else if c.toNat = 12 then ['\\', 'f']
  else if c.toNat < 0x20 then ['\\', 'u', '0', '0'] ++ Text.Numeral.hexByte (UInt8.ofNat c.toNat)
  else [c]

/-- A string between quotes. -/
def stringChars (s : String) : List Char := '"' :: s.toList.flatMap escapeChar ++ ['"']

/-- The digits of an integer, after a minus sign if it is negative. -/
def integerChars (n : Int) : List Char :=
  if n < 0 then '-' :: Text.Numeral.decimalDigits n.natAbs else Text.Numeral.decimalDigits n.natAbs

/-! ## Compact text -/

mutual

/-- The characters of a value without spaces. -/
def chars : Value → List Char
  | .null => ['n', 'u', 'l', 'l']
  | .bool true => ['t', 'r', 'u', 'e']
  | .bool false => ['f', 'a', 'l', 's', 'e']
  | .integer n => integerChars n
  | .float x => (Decimal.floatText x).toList
  | .string s => stringChars s
  | .array items => '[' :: itemChars items ++ [']']
  | .object members => '{' :: memberChars members ++ ['}']

/-- The elements of an array with commas between them. -/
def itemChars : List Value → List Char
  | [] => []
  | [v] => v.chars
  | v :: vs => v.chars ++ ',' :: itemChars vs

/-- The members of an object with commas between them. -/
def memberChars : List (String × Value) → List Char
  | [] => []
  | [(k, v)] => stringChars k ++ ':' :: v.chars
  | (k, v) :: rest => stringChars k ++ ':' :: v.chars ++ ',' :: memberChars rest

end

/-- The text of a value without spaces. -/
def compact (v : Value) : String := String.ofList v.chars

/-! ## Text with one entry per line -/

/-- A line break and an indentation of two spaces per level. -/
def newline (level : Nat) : List Char := '\n' :: List.replicate (2 * level) ' '

mutual

/-- The characters of a value with one entry per line. -/
def prettyChars (level : Nat) : Value → List Char
  | .array [] => ['[', ']']
  | .array (v :: vs) => '[' :: prettyItems (level + 1) (v :: vs) ++ newline level ++ [']']
  | .object [] => ['{', '}']
  | .object (m :: ms) => '{' :: prettyMembers (level + 1) (m :: ms) ++ newline level ++ ['}']
  | v => v.chars

/-- The elements of an array, one per line. -/
def prettyItems (level : Nat) : List Value → List Char
  | [] => []
  | [v] => newline level ++ prettyChars level v
  | v :: vs => newline level ++ prettyChars level v ++ ',' :: prettyItems level vs

/-- The members of an object, one per line. -/
def prettyMembers (level : Nat) : List (String × Value) → List Char
  | [] => []
  | [(k, v)] => newline level ++ stringChars k ++ ':' :: ' ' :: prettyChars level v
  | (k, v) :: rest =>
    newline level ++ stringChars k ++ ':' :: ' ' :: prettyChars level v ++
      ',' :: prettyMembers level rest

end

/-- The text of a value with one entry per line. -/
def pretty (v : Value) : String := String.ofList (prettyChars 0 v)

/-! ## Objects as maps -/

mutual

/-- Sort the members of every object by key; of several members with one key the last counts. -/
def canonical : Value → Value
  | .array items => .array (canonicalItems items)
  | .object members => .object (canonicalMembers members).entries
  | v => v

/-- The elements of an array with sorted members. -/
def canonicalItems : List Value → List Value
  | [] => []
  | v :: vs => v.canonical :: canonicalItems vs

/-- The members of an object as a map. -/
def canonicalMembers (members : List (String × Value)) : SortedMap String Value :=
  canonicalFrom .empty members

/-- Add members to a map. -/
def canonicalFrom (m : SortedMap String Value) : List (String × Value) → SortedMap String Value
  | [] => m
  | (k, v) :: rest => canonicalFrom (m.insert k v.canonical) rest

end

def member? (key : String) : Value → Option Value
  | .object members => (members.find? (·.1 = key)).map (·.2)
  | _ => none

end Value

end NetRelocation.Json
