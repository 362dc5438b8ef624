import NetRelocation.Text.Utf8

/-!
# Control sequences in text

A terminal takes some characters of a text as commands. A command starts with the escape character;
where it ends depends on what comes next. `visible` is what stays of a text that is shown without
commands: the characters outside them, of the control characters only tab, line feed, form feed and
carriage return.
-/

namespace NetRelocation.Text

/-- Where a reader of a text stands. -/
inductive Control where
  /-- Outside of any command. -/
  | ground
  /-- After the escape character. -/
  | escape
  /-- In a command of several characters, which ends with a digit, a letter or the like. -/
  | intermediate
  /-- In a command with parameters, which ends with a letter or the like. -/
  | sequence
  /-- At the head of a string for a device. -/
  | device
  /-- In the parameters of a string for a device. -/
  | deviceParameters
  /-- After the parameters of a string for a device. -/
  | deviceIntermediate
  /-- In a string that a string terminator ends. -/
  | string
  /-- In a string that a bell ends. -/
  | title
  deriving DecidableEq, Repr

namespace Control

def escapeChar : Char := Char.ofNat 0x1B

/-- The characters that break a command off, be it where it may. -/
def isCancel (c : Char) : Bool := c.toNat == 0x18 || c.toNat == 0x1A

/-- The control characters that a terminal shows as space. -/
def isLayout (c : Char) : Bool := c == '\t' || c == '\n' || c.toNat == 0x0C || c == '\r'

/-- Whether a character is shown outside of commands. -/
def isShown (c : Char) : Bool := isLayout c || (0x20 ≤ c.toNat && c.toNat != 0x7F)

/-- Whether a character lies in a closed range. -/
def within (low high : Char) (c : Char) : Bool := low.toNat ≤ c.toNat && c.toNat ≤ high.toNat

/-- Where the character after an escape character leads to. -/
def afterEscape (c : Char) : Control :=
  if c = '[' then sequence
  else if c = ']' then title
  else if c = 'P' then device
  else if c = 'X' ∨ c = '^' ∨ c = '_' then string
  else if within ' ' '/' c then intermediate
  else if within '0' '~' c then ground
  else escape

/-- Whether the UTF-8 form of a character has the octet of the string terminator. -/
def hasTerminator (c : Char) : Bool := (Utf8.encode [c]).contains 0x9C

/-- Where a character leads to that is not shown. -/
def next (state : Control) (c : Char) : Control :=
  if c = escapeChar then escape
  else if isCancel c then ground
  else
    match state with
    | ground => ground
    | escape => afterEscape c
    | intermediate => if within '0' '~' c then ground else intermediate
    | sequence => if within '@' '~' c then ground else sequence
    | device =>
      if within ' ' '/' c then deviceIntermediate
      else if within '0' '?' c then deviceParameters
      else if within '@' '~' c then string
      else device
    | deviceParameters =>
      if within ' ' '/' c then deviceIntermediate
      else if within '<' '~' c then string
      else deviceParameters
    | deviceIntermediate => if within '0' '~' c then string else deviceIntermediate
    | string => if hasTerminator c then ground else string
    | title => if c.toNat = 0x07 then ground else title

/-- Whether a character is shown at a place. -/
def shows (state : Control) (c : Char) : Bool :=
  match state with
  | ground => isShown c
  | escape => isLayout c
  | intermediate => isLayout c
  | sequence => isLayout c
  | device => false
  | deviceParameters => false
  | deviceIntermediate => false
  | string => false
  | title => false

end Control

/-- What is shown of a text from a place on. A character that is shown ends every command. -/
def visibleFrom : Control → List Char → List Char
  | _, [] => []
  | state, c :: cs =>
    if state.shows c then c :: visibleFrom .ground cs else visibleFrom (state.next c) cs

def visible (s : String) : String := String.ofList (visibleFrom .ground s.toList)

end NetRelocation.Text
