import NetRelocation.CommandLine.Execute

/-!
# The program

The command line around the pure program. The files that a command line names are read before it
runs; there is no kernel behind it, so that no look-up finds a device.
-/

open NetRelocation

/-- The file that a command line names, by its place in the working directory. -/
def namedFile (words : List String) : Option String :=
  match Invocation.parse words with
  | .ok ⟨_, .serve args⟩ => args.config
  | _ => none

/-- The system with a file, if it can be read. -/
def filesWith (path : Option String) : IO FileTree := do
  match path with
  | none => return .system
  | some path =>
    try
      let bytes ← IO.FS.readBinFile path
      return FileTree.system.addPath path (.regular bytes.toList)
    catch _ => return .system

def main (words : List String) : IO UInt32 := do
  let files ← filesWith (namedFile words)
  let machine : Machine := ⟨0, .ok "localhost".toUTF8.toList⟩
  let ending := runProgram words ⟨machine, .quiet files⟩
  IO.print ending.output
  IO.eprint ending.errors
  return UInt32.ofNat ending.status
