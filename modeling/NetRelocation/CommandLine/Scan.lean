import NetRelocation.CommandLine.UsageError
import NetRelocation.Text.Similarity

/-!
# Reading options

A command has switches and options with values. The words of a command line are read from the left.
The value of an option may be attached to it or be the next word, provided that does not start with
a hyphen. An attached value is looked at at once, another one when the next known option or switch
starts, or at the end. A word that is nothing known ends the reading.

What has been given is kept in a draft of the command, of type `β`, beside the names of the options
that were given (`Reading`).
-/

namespace NetRelocation.CommandLine

/-- Why the value of an option is refused. -/
inductive ValueFault where
  /-- The value counts as not given. -/
  | missing
  | invalid (reason : String)
  deriving DecidableEq, Repr

structure ValueOption (β : Type) where
  long : String
  short : Option Char
  /-- What messages call the value. -/
  valueName : String
  repeatable : Bool
  required : Bool
  set : String → β → Except ValueFault β

structure Switch (β : Type) where
  long : String
  short : Option Char
  /-- What the switch does. -/
  about : String
  /-- Whether the switch is the command's own, and not one that every command has. -/
  own : Bool
  set : β → Except UsageError β

/-- How messages show an option. -/
def ValueOption.display {β : Type} (o : ValueOption β) : String :=
  "--" ++ o.long ++ " <" ++ o.valueName ++ ">"

/-- How messages show a switch. -/
def Switch.display {β : Type} (s : Switch β) : String := "--" ++ s.long

structure Options (β : Type) where
  /-- The words that lead to the command. -/
  command : String
  values : List (ValueOption β)
  switches : List (Switch β)
  /-- What follows the options. -/
  operands : List String

/-- What has been read of a command. -/
structure Reading (β : Type) where
  /-- The options given, in order, as messages show them. -/
  given : List String
  draft : β

namespace Options

variable {β : Type}

/-! ## Forms of a command -/

/-- The options that have to be given, as messages show them. -/
def required (options : Options β) : List String :=
  (options.values.filter (·.required)).map (·.display)

/-- The command's own options and switches, as messages show them. -/
def own (options : Options β) : List String :=
  options.values.map (·.display) ++ (options.switches.filter (·.own)).map (·.display)

/-- The form of a command. -/
def usage (options : Options β) : String :=
  Text.join " " (options.command :: "[OPTIONS]" :: options.required ++ options.operands)

/-- The form of a command with some of its options. When the command's own ones stand together, all
of them are named as alternatives. -/
def usageWith (options : Options β) (names : List String) (together : Bool) : String :=
  let names := (options.required ++ names).eraseDups
  let shown :=
    if together then
      names.filter (· ∉ options.own) ++ ["<" ++ Text.join "|" options.own ++ ">"]
    else names
  Text.join " " (options.command :: shown ++ options.operands)

/-- Whether one of the command's own options has been given. -/
def hasOwn (options : Options β) (reading : Reading β) : Bool :=
  reading.given.any (· ∈ options.own)

/-- The given switches that every command has. -/
def sharedGiven (options : Options β) (reading : Reading β) : List String :=
  reading.given.filter (· ∉ options.own)

/-- The long names of the options and switches, with how messages show them. -/
def longs (options : Options β) : List (String × String) :=
  options.values.map (fun o => (o.long, o.display)) ++
    options.switches.map fun s => (s.long, s.display)

/-- The long name that a mistyped one is most similar to. -/
def closest? (options : Options β) (name : String) : Option (String × String) :=
  (Text.similar name (options.longs.map (·.1))).getLast?.bind fun long =>
    options.longs.find? (·.1 = long)

/-- The error of an argument that is not known. -/
def unknown (options : Options β) (word : String) : UsageError :=
  .unknownArgument word none options.usage

end Options

/-- An option that has started, with its value if that has been read. -/
abbrev Pending (β : Type) : Type := Option (ValueOption β × Option String)

/-- The error of a long option that is not known, with a tip when nothing similar is. -/
def unknownLong {β : Type} (options : Options β) (name : String) (otherwise : Option Tip)
    (pending : Pending β) (reading : Reading β) : UsageError :=
  let closest := options.closest? name
  let names := options.sharedGiven reading ++ (closest.map (·.2)).toList
  let together := options.hasOwn reading || (pending.bind (·.2)).isSome ||
    closest.any (·.2 ∈ options.own)
  .unknownArgument ("--" ++ name) ((closest.map fun c => .argument ("--" ++ c.1)).or otherwise)
    (if names = [] && !together then options.usage else options.usageWith names together)

section

variable {β : Type} (options : Options β)

/-! ## Giving options -/

def ValueOption.apply (o : ValueOption β) (value : String) (reading : Reading β) :
    Except UsageError (Reading β) :=
  if o.display ∈ reading.given && !o.repeatable then .error (.repeated o.display options.usage)
  else
    match o.set value reading.draft with
    | .ok draft => .ok ⟨reading.given ++ [o.display], draft⟩
    | .error .missing => .error (.missingValue o.display)
    | .error (.invalid reason) => .error (.invalidValue value o.display reason)

def Switch.apply (s : Switch β) (reading : Reading β) : Except UsageError (Reading β) :=
  if s.display ∈ reading.given then .error (.repeated s.display options.usage)
  else (s.set reading.draft).map fun draft => ⟨reading.given ++ [s.display], draft⟩

/-- Look at the value of an option that has started. -/
def resolve : Pending β → Reading β → Except UsageError (Reading β)
  | none, reading => .ok reading
  | some (o, none), _ => .error (.missingValue o.display)
  | some (o, some value), reading => o.apply options value reading

/-- Start an option, or give it its attached value. -/
def start (o : ValueOption β) (attached : Option String) (pending : Pending β)
    (reading : Reading β) : Except UsageError (Pending β × Reading β) := do
  let reading ← resolve options pending reading
  match attached with
  | none => return (some (o, none), reading)
  | some value => return (none, ← o.apply options value reading)

/-- Turn a switch on after the option before it. -/
def turnOn (s : Switch β) (pending : Pending β) (reading : Reading β) :
    Except UsageError (Pending β × Reading β) := do
  let reading ← resolve options pending reading
  return (none, ← s.apply options reading)

def unneeded (s : Switch β) (value : String) (reading : Reading β) : UsageError :=
  .unneededValue value s.display
    (options.usageWith (options.sharedGiven reading ++ [s.display]) (options.hasOwn reading))

/-! ## Words -/

def attachedValue : List Char → Option String
  | [] => none
  | '=' :: cs => some (String.ofList cs)
  | cs => some (String.ofList cs)

/-- Read the letters of a word after its hyphen. -/
def readLetters : List Char → Pending β → Reading β → Except UsageError (Pending β × Reading β)
  | [], pending, reading => .ok (pending, reading)
  | c :: cs, pending, reading =>
    match options.switches.find? (·.short = some c) with
    | some s =>
      match turnOn options s pending reading with
      | .ok (pending, reading) => readLetters cs pending reading
      | .error e => .error e
    | none =>
      match options.values.find? (·.short = some c) with
      | some o => start options o (attachedValue cs) pending reading
      | none => .error (options.unknown (String.ofList ['-', c]))

/-- The name of a long option and its attached value. -/
def splitLong (cs : List Char) : String × Option String :=
  let name := cs.takeWhile (· ≠ '=')
  match cs.drop name.length with
  | [] => (String.ofList name, none)
  | _ :: value => (String.ofList name, some (String.ofList value))

/-- Read the rest of a word that starts with two hyphens; the tip is for a name that is similar to
no known one. -/
def readLong (otherwise : String → Option Tip) (cs : List Char) (pending : Pending β)
    (reading : Reading β) : Except UsageError (Pending β × Reading β) :=
  let (name, attached) := splitLong cs
  match options.switches.find? (·.long = name) with
  | some s =>
    match attached with
    | some value => .error (unneeded options s value reading)
    | none => turnOn options s pending reading
  | none =>
    match options.values.find? (·.long = name) with
    | some o => start options o attached pending reading
    | none => .error (unknownLong options name (otherwise name) pending reading)

/-- What a word is. -/
inductive Word where
  /-- Two hyphens: no option follows. -/
  | separator
  | long (cs : List Char)
  | letters (cs : List Char)
  | plain
  deriving DecidableEq, Repr

def Word.ofString (w : String) : Word :=
  match w.toList with
  | ['-', '-'] => separator
  | '-' :: '-' :: cs => long cs
  | ['-'] => plain
  | '-' :: cs => letters cs
  | _ => plain

/-- Read the words of a command without arguments of its own. -/
def scan : List String → Pending β → Reading β → Except UsageError (Reading β)
  | [], pending, reading => resolve options pending reading
  | w :: ws, pending, reading =>
    match Word.ofString w with
    | .separator =>
      match ws with
      | [] => resolve options pending reading
      | w :: _ => .error (options.unknown w)
    | .long cs =>
      match readLong options (fun _ => none) cs pending reading with
      | .ok (pending, reading) => scan ws pending reading
      | .error e => .error e
    | .letters cs =>
      match readLetters options cs pending reading with
      | .ok (pending, reading) => scan ws pending reading
      | .error e => .error e
    | .plain =>
      match pending with
      | some (o, none) => scan ws (some (o, some w)) reading
      | _ => .error (options.unknown w)

end

end NetRelocation.CommandLine
