import Graft.Command.Run
import Graft.File.Snapshot

/-! # The command line program

The file tree that a command works on comes as a snapshot on standard input.  The report goes
to standard output; if the command changed the tree, a line with a form feed and the snapshot
of the new tree follow it.
-/
namespace Graft

def environment (root : File.Node) : IO Command.Environment := do
  let directory := (← IO.getEnv "PWD").getD "/"
  let working := ((⟨root, []⟩ : File.View).resolve directory).toOption.getD []
  let output ← IO.getStdout
  return {
    view := ⟨root, working⟩
    home := (← IO.getEnv "HOME").getD "/"
    projectVariable := ← IO.getEnv "BUILDSCRIPT_INJECTOR_PROJECT"
    colored := (← output.isTty) && (← IO.getEnv "NO_COLOR").isNone }

/-- What follows the report. -/
def remainder (before after : File.Node) : String :=
  let old := File.Snapshot.render before
  let new := File.Snapshot.render after
  if old = new then "" else "\x0c\n" ++ new

end Graft

open Graft in
def main (arguments : List String) : IO UInt32 := do
  let input ← (← IO.getStdin).readToEnd
  match File.Snapshot.parse? input with
  | none =>
    (← IO.getStderr).putStr "standard input holds no snapshot of a file tree\n"
    return 2
  | some root =>
    let answer := Command.run (← environment root) arguments
    (← IO.getStdout).putStr (answer.output ++ remainder root answer.root)
    (← IO.getStderr).putStr answer.errors
    return answer.code.toUInt32
