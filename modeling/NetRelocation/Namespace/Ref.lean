import NetRelocation.Invalid
import NetRelocation.Json.Codec
import NetRelocation.Namespace.Path

/-!
# References to network namespaces

A namespace is named by the path of its file or by the number of a process that lives in it. Two
references are the same (`NamespaceRef.Same`) when their keys are: paths are compared by components
and a process is never a path.
-/

namespace NetRelocation

/-- A reference to a network namespace. -/
inductive NamespaceRef where
  | path (file : String)
  | process (number : Int32)
  deriving DecidableEq, Repr

/-- What a reference is compared by. -/
inductive NamespaceKey where
  | path (file : PathKey)
  | process (number : Int32)
  deriving DecidableEq, Repr

namespace NamespaceRef

def key : NamespaceRef → NamespaceKey
  | path file => .path (.ofString file)
  | process number => .process number

/-- Two references with one meaning. -/
def Same (a b : NamespaceRef) : Prop := a.key = b.key

instance (a b : NamespaceRef) : Decidable (a.Same b) := inferInstanceAs (Decidable (a.key = b.key))

def file : NamespaceRef → String
  | path file => file
  | process number => "/proc/" ++ Text.Numeral.signed number.toInt ++ "/ns/net"

/-- A reference is displayed as the path of its file. -/
def display (ns : NamespaceRef) : String := ns.file

/-- Read a reference: a numeral is a process, which has to be positive, all else is a path. -/
def parse (s : String) : Except Invalid NamespaceRef :=
  if s = "" then .error .emptyNamespace
  else
    match Text.Numeral.readInt32 s.toList with
    | .ok number => if 0 < number then .ok (.process number) else .error (.namespaceProcess s)
    | .error _ => .ok (.path s)

def write : NamespaceRef → Json.Value
  | path file => .object [("path", .string file)]
  | process number => .object [("process", Json.Codec.int32.write number)]

/-- References are written as objects with one key. -/
def codec : Json.Codec NamespaceRef :=
  .union write [.carrying "path" .path .path, .carrying "process" .int32 .process]

end NamespaceRef

end NetRelocation
