import NetRelocation.Decimal.Shortest
import NetRelocation.Text.Position
import NetRelocation.Text.Quoted

/-!
# Faults of JSON texts

A text fails in one of three ways: it breaks the grammar (`malformed`), it stops too soon
(`unfinished`), or it is well formed and does not describe a value of the wanted type
(`mismatch`). The cause is kept as data; `Fault.message` has the wording.
-/

namespace NetRelocation.Json

/-- How a text breaks the grammar. -/
inductive Malformed where
  | expectedValue
  | expectedIdent
  | expectedColon
  | expectedObjectCommaOrEnd
  | expectedListCommaOrEnd
  | keyMustBeString
  | trailingComma
  | trailingCharacters
  | invalidNumber
  | numberOutOfRange
  | invalidEscape
  | controlCharacter
  | unexpectedEndOfHexEscape
  | loneSurrogate
  | recursionLimit
  deriving DecidableEq, Repr

/-- What was open when the text stopped. -/
inductive Unfinished where
  | value
  | string
  | object
  | list
  deriving DecidableEq, Repr

/-- What stood where something else was wanted. -/
inductive Found where
  | null
  | bool (b : Bool)
  | integer (n : Int)
  | float (x : Float)
  | string (s : String)
  | sequence
  | map
  | unitVariant
  deriving Repr

/-- How a value misses the wanted type. -/
inductive Mismatch where
  | invalidType (found : Found) (expected : String)
  | invalidValue (found : Found) (expected : String)
  | invalidLength (length : Nat) (expected : String)
  | missingField (name : String)
  | duplicateField (name : String)
  | unknownVariant (name : String) (known : List String)
  /-- A text that the wanted type's own grammar refuses. -/
  | refused (message : String)
  deriving Repr

/-- Why a JSON text was refused. -/
inductive Fault where
  | malformed (cause : Malformed)
  | unfinished (place : Unfinished)
  | mismatch (cause : Mismatch)
  deriving Repr

/-! ## Wording -/

/-- The wording of a broken grammar rule. -/
def Malformed.message : Malformed → String
  | .expectedValue => "expected value"
  | .expectedIdent => "expected ident"
  | .expectedColon => "expected `:`"
  | .expectedObjectCommaOrEnd => "expected `,` or `\x7d`"
  | .expectedListCommaOrEnd => "expected `,` or `]`"
  | .keyMustBeString => "key must be a string"
  | .trailingComma => "trailing comma"
  | .trailingCharacters => "trailing characters"
  | .invalidNumber => "invalid number"
  | .numberOutOfRange => "number out of range"
  | .invalidEscape => "invalid escape"
  | .controlCharacter => "control character (\\u0000-\\u001F) found while parsing a string"
  | .unexpectedEndOfHexEscape => "unexpected end of hex escape"
  | .loneSurrogate => "lone leading surrogate in hex escape"
  | .recursionLimit => "recursion limit exceeded"

/-- The wording of a text that stops too soon. -/
def Unfinished.message : Unfinished → String
  | .value => "EOF while parsing a value"
  | .string => "EOF while parsing a string"
  | .object => "EOF while parsing an object"
  | .list => "EOF while parsing a list"

/-- A name between backticks. -/
def ticked (s : String) : String := "`" ++ s ++ "`"

/-- The wording of what was found. -/
def Found.text : Found → String
  | .null => "null"
  | .bool b => "boolean " ++ ticked (if b then "true" else "false")
  | .integer n => "integer " ++ ticked (Text.Numeral.signed n)
  | .float x => "floating point " ++ ticked (Decimal.floatText x)
  | .string s => "string " ++ Text.quoted s
  | .sequence => "sequence"
  | .map => "map"
  | .unitVariant => "unit variant"

/-- A list of names to choose from. -/
def oneOf : List String → String
  | [] => "there are no variants"
  | [a] => ticked a
  | [a, b] => ticked a ++ " or " ++ ticked b
  | names => "one of " ++ Text.join ", " (names.map ticked)

/-- A refusal that ends with a position of its own loses it, since a fault has one place, in the
text that holds it. Numbers of more than 64 bits are no position. -/
def unplaced (message : String) : String :=
  match Text.positioned? message with
  | some p => if p.line < UInt64.size ∧ p.column < UInt64.size then p.message else message
  | none => message

def Mismatch.message : Mismatch → String
  | .invalidType found expected => "invalid type: " ++ found.text ++ ", expected " ++ expected
  | .invalidValue found expected => "invalid value: " ++ found.text ++ ", expected " ++ expected
  | .invalidLength n expected =>
    "invalid length " ++ Text.Numeral.decimal n ++ ", expected " ++ expected
  | .missingField name => "missing field " ++ ticked name
  | .duplicateField name => "duplicate field " ++ ticked name
  | .unknownVariant name known => "unknown variant " ++ ticked name ++ ", expected " ++ oneOf known
  | .refused message => unplaced message

def Fault.message : Fault → String
  | .malformed cause => cause.message
  | .unfinished place => place.message
  | .mismatch cause => cause.message

/-- The wording of a fault of a value that stands in no text: a refusal keeps a position of its own
unless that names the line zero. -/
def Fault.ownMessage : Fault → String
  | .mismatch (.refused message) =>
    match Text.positioned? message with
    | some ⟨_, 0, _⟩ => unplaced message
    | _ => message
  | fault => fault.message

/-- A number of elements in words. -/
def elements (n : Nat) : String :=
  Text.Numeral.decimal n ++ (if n = 1 then " element" else " elements")

end NetRelocation.Json
