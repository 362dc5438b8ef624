import NetRelocation.Error
import NetRelocation.Text.Utf8

/-!
# Files

The files that matter: namespace files, a few places of the system, and files in the working
directory. A path is walked component by component (`FileTree.find`); the walk fails at a component
that is too long, that does not exist, or that would lie below something that is no directory. To
open a file (`FileTree.openFile`) can fail for a reason of its own, before the path is walked.
-/

namespace NetRelocation

/-- What stands at a place of the tree. -/
inductive FileKind where
  | directory
  | regular (content : List UInt8)
  /-- An empty file that stands for a namespace. -/
  | namespaceFile
  /-- The file of the namespace of this process, which can be opened and not be read. -/
  | hostNamespace
  /-- A device that reads as empty. -/
  | device
  deriving DecidableEq, Repr

/-- Files by their components from the root on. -/
structure FileTree where
  entries : List (List String × FileKind)
  /-- Paths, as they are written, that cannot be opened, with error numbers. -/
  faults : List (String × Int) := []

namespace FileTree

/-- The components of the working directory, which no written path can spell. -/
def workingDirectory : List String := ["."]

/-- The largest number of bytes of a path, its end marker included. -/
def maxPath : Nat := 4096

/-- The largest number of bytes of a component. -/
def maxComponent : Nat := 255

/-- The path of the namespace of this process. -/
def hostNamespacePath : String := "/proc/self/ns/net"

/-- The directories below the root that every system has. -/
def systemDirectories : List String :=
  ["bin", "boot", "etc", "home", "lib", "lib64", "media", "mnt", "opt", "root", "run", "sbin",
    "srv", "sys", "tmp", "usr", "var"]

/-- The places that every system has. -/
def system : FileTree where
  entries :=
    [(["proc", "self", "ns", "net"], .hostNamespace), (["dev", "null"], .device),
      (workingDirectory, .directory)] ++ systemDirectories.map fun name => ([name], .directory)

def add (tree : FileTree) (place : List String) (kind : FileKind) : FileTree :=
  { tree with entries := (place, kind) :: tree.entries }

/-- What stands at a place; a place above another is a directory. -/
def at? (tree : FileTree) (place : List String) : Option FileKind :=
  match tree.entries.find? (·.1 = place) with
  | some (_, kind) => some kind
  | none => if tree.entries.any (place.isPrefixOf ·.1) then some .directory else none

/-- The written components of a path; an empty one at the end asks for a directory. -/
def components (path : String) : List String :=
  let pieces := Text.split '/' path
  match pieces.getLast? with
  | some "" => pieces.filter (· ≠ "") ++ ["."]
  | _ => pieces.filter (· ≠ "")

def start (path : String) : List String := if Text.startsWith "/" path then [] else workingDirectory

/-- Add a file under a path without dots. -/
def addPath (tree : FileTree) (path : String) (kind : FileKind) : FileTree :=
  tree.add (start path ++ (components path).filter (· ≠ ".")) kind

def walk (tree : FileTree) (here : List String) : List String → Except IoCause (List String)
  | [] => .ok here
  | name :: names =>
    match tree.at? here with
    | none => .error (.errno Errno.noEntry)
    | some .directory =>
      if maxComponent < name.utf8ByteSize then .error (.errno Errno.nameTooLong)
      else if name = "." then tree.walk here names
      else if name = ".." then tree.walk here.dropLast names
      else
        match tree.at? (here ++ [name]) with
        | none => .error (.errno Errno.noEntry)
        | some _ => tree.walk (here ++ [name]) names
    | some _ => .error (.errno Errno.notDirectory)

/-- The place that a path leads to. -/
def locate (tree : FileTree) (path : String) : Except IoCause (List String) :=
  if path.toList.contains (Char.ofNat 0) then .error .nulInPath
  else if path = "" then .error (.errno Errno.noEntry)
  else if maxPath ≤ path.utf8ByteSize then .error (.errno Errno.nameTooLong)
  else tree.walk (start path) (components path)

/-- The place that a path leads to, with what stands there. -/
def find (tree : FileTree) (path : String) : Except IoCause (List String × FileKind) :=
  match tree.locate path with
  | .error cause => .error cause
  | .ok place =>
    match tree.at? place with
    | some kind => .ok (place, kind)
    | none => .error (.errno Errno.noEntry)

def openFile (tree : FileTree) (path : String) : Except IoCause (List String × FileKind) :=
  match tree.faults.find? (·.1 = path) with
  | some (_, errno) => .error (.errno errno)
  | none => tree.find path

/-- How a place is written: from the working directory on where that is possible. -/
def displayPlace (place : List String) : String :=
  if workingDirectory.isPrefixOf place then Text.join "/" (place.drop workingDirectory.length)
  else "/" ++ Text.join "/" place

def readFile (tree : FileTree) (path : String) : Except IoCause (List UInt8) :=
  match tree.openFile path with
  | .error cause => .error cause
  | .ok (_, .regular content) => .ok content
  | .ok (_, .directory) => .error (.errno Errno.isDirectory)
  | .ok (_, .hostNamespace) => .error (.errno Errno.invalidArgument)
  | .ok (_, .namespaceFile) => .ok []
  | .ok (_, .device) => .ok []

def readText (tree : FileTree) (path : String) : Except IoCause String :=
  match tree.readFile path with
  | .error cause => .error cause
  | .ok bytes =>
    match Text.Utf8.decode? bytes with
    | some cs => .ok (String.ofList cs)
    | none => .error .invalidText

end FileTree

end NetRelocation
