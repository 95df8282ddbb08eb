import Stencil.Command.Arguments
import Stencil.Command.Run
import Stencil.Json.Library

/-!
# The command line program

The program reads the files that its arguments name, runs the command on them, and writes what the
command leaves.
-/

namespace Stencil.Command

def readEntry (path : String) : IO FileEntry := do
  try
    pure (.contents (← IO.FS.readBinFile path))
  catch
    | .noFileOrDirectory .. => pure .absent
    | error => pure (.unreadable (toString error))

def paths (arguments : List String) : List String :=
  match argumentReader.read readAssignment arguments with
  | .ok invocation => invocation.paths
  | .error _ => []

def execute (arguments : List String) : IO UInt32 := do
  let mut entries : List (String × FileEntry) := []
  for path in paths arguments do
    entries := (path, ← readEntry path) :: entries
  let found := entries
  let outcome := run argumentReader Json.library (fun path => (found.lookup path).getD .absent)
    .everything [] arguments
  for portion in outcome.output.reverse do
    IO.print (Text.ofUtf8 ⟨portion.toArray⟩)
  IO.eprint outcome.reports
  pure outcome.code.toUInt32

end Stencil.Command

def main (arguments : List String) : IO UInt32 :=
  Stencil.Command.execute arguments
