import NetRelocation.Text.ControlSequence
import NetRelocation.Text.Split

/-!
# Errors of the command line

Why the words of a command line are no command. Asking for help or for the version also ends the
reading of a command line and has no message. An error is shown with what may have been meant
(`Tip`) and with the form of a correct command line.
-/

namespace NetRelocation

/-- What may have been meant. -/
inductive Tip where
  | commands (names : List String)
  | argument (name : String)
  /-- An argument that a command has which comes later. -/
  | elsewhere (command name : String)
  /-- A command that stands where none is read. -/
  | noSeparator (command : String)
  deriving DecidableEq, Repr

/-- Why a command line was not accepted; the usage is the form of a correct one. -/
inductive UsageError where
  | help
  | version
  /-- No word was given at all, which asks for an overview. -/
  | nothingGiven (overview : String)
  | missingSubcommand (program : String) (known : List String) (usage : String)
  | unknownSubcommand (word : String) (tip : Option Tip) (usage : String)
  /-- Help on something that no help is about. -/
  | unknownTopic (word usage : String)
  | unknownArgument (word : String) (tip : Option Tip) (usage : String)
  | repeated (option usage : String)
  | missingValue (option : String)
  | unneededValue (value option usage : String)
  | invalidValue (value option reason : String)
  | missingRequired (options : List String) (usage : String)
  deriving DecidableEq, Repr

/-- The wording of what may have been meant. -/
def Tip.text : Tip → String
  | commands [name] => "a similar subcommand exists: '" ++ name ++ "'"
  | commands names =>
    "some similar subcommands exist: " ++
      Text.join ", " (names.map fun name => "'" ++ name ++ "'")
  | argument name => "a similar argument exists: '" ++ name ++ "'"
  | elsewhere command name => "'" ++ command ++ " " ++ name ++ "' exists"
  | noSeparator command =>
    "subcommand '" ++ command ++ "' exists; to use it, remove the '--' before it"

namespace UsageError

/-! ## Wording

The message is written for a terminal, with marks around some of its parts, and shown without them.
A mark is a control sequence, so it also ends a control sequence that a part leaves open.
-/

/-- A part of a message between marks. -/
def marked (part : String) : String := "\x1b[33m" ++ part ++ "\x1b[0m"

/-- A part of a message between marks and single quotes. -/
def named (part : String) : String := "'" ++ marked part ++ "'"

/-- What is said about an error, if anything. -/
def text : UsageError → Option String
  | help => none
  | version => none
  | nothingGiven _ => none
  | missingSubcommand program known _ =>
    some (named program ++ " requires a subcommand but one was not provided\n  [subcommands: " ++
      Text.join ", " known ++ "]")
  | unknownSubcommand word _ _ => some ("unrecognized subcommand " ++ named word)
  | unknownTopic word _ => some ("unrecognized subcommand " ++ named word)
  | unknownArgument word _ _ => some ("unexpected argument " ++ named word ++ " found")
  | repeated option _ =>
    some ("the argument " ++ named option ++ " cannot be used multiple times")
  | missingValue option =>
    some ("a value is required for " ++ named option ++ " but none was supplied")
  | unneededValue value option _ =>
    some ("unexpected value " ++ named value ++ " for " ++ named option ++
      " found; no more were expected")
  | invalidValue value option reason =>
    some ("invalid value " ++ named value ++ " for " ++ named option ++ ": " ++ reason)
  | missingRequired options _ =>
    some ("the following required arguments were not provided:\n  " ++ Text.join "\n  " options)

/-- What may have been meant. -/
def tip? : UsageError → Option Tip
  | unknownSubcommand _ tip _ => tip
  | unknownArgument _ tip _ => tip
  | _ => none

/-- The form of a correct command line. A wrong value does not show it. -/
def usage? : UsageError → Option String
  | missingSubcommand _ _ usage => some usage
  | unknownSubcommand _ _ usage => some usage
  | unknownTopic _ usage => some usage
  | unknownArgument _ _ usage => some usage
  | repeated _ usage => some usage
  | unneededValue _ _ usage => some usage
  | missingRequired _ usage => some usage
  | _ => none

/-- The words before the form of a correct command line. -/
def usageTitle : String := "Usage: "

/-- Where more is found; there is no help on the command for help. -/
def advice : UsageError → String
  | unknownTopic .. => "\n"
  | _ => "\n\nFor more information, try " ++ named "--help" ++ ".\n"

def paragraph (start : String) (content : Option String) : String :=
  content.elim "" fun content => "\n\n" ++ start ++ content

/-- All that is shown for an error, empty when nothing is said. -/
def shown : UsageError → String
  | nothingGiven overview => overview
  | e =>
    e.text.elim "" fun text =>
      Text.visible ("error: " ++ text ++ paragraph "  tip: " (e.tip?.map (·.text)) ++
        paragraph usageTitle e.usage? ++ e.advice)

/-- The message of an error: the first paragraph of what is shown, if it tells of an error. -/
def message (e : UsageError) : String :=
  e.text.elim "" fun _ => Text.trimEnd (String.ofList (Text.beforeEmptyLine e.shown.toList))

/-- The status that the program ends with. -/
def exitCode : UsageError → Nat
  | help => 0
  | version => 0
  | _ => 2

end UsageError

end NetRelocation
