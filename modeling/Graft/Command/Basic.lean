import Graft.Command.Style
import Graft.File.Resolution

/-! # Runs of commands

A command runs in an environment and has an outcome: the file tree as it is then, what was
printed, and the failure that ended the run, if one did.
-/
namespace Graft.Command

structure Environment where
  view : File.View
  home : String
  projectVariable : Option String
  colored : Bool

/-- A failure is reported with the error behind it, or is a remark of its own. -/
inductive Failure
  | error (message : String) (source? : Option String)
  | remark (text : String)

namespace Failure

/-- A text with each line indented. -/
def indent (text : String) : String :=
  "\n".intercalate ((text.splitOn "\n").map ("    " ++ ·))

def text : Failure → String
  | error message none => s!"Error: {message}\n"
  | error message (some source) => s!"Error: {message}\n\nCaused by:\n{indent source}\n"
  | remark text => text

end Failure

structure Outcome where
  root : File.Node
  printed : String
  failure? : Option Failure

namespace Environment

/-- The outcome of a run that changes no file. -/
def finish (e : Environment) (printed : String) (failure? : Option Failure) : Outcome :=
  ⟨e.view.root, printed, failure?⟩

def paint (e : Environment) (style : Style) (text : String) : String :=
  Command.paint e.colored style text

/-- The line of a step that changed something. -/
def done (e : Environment) (text : String) : String :=
  e.paint .green "✓" ++ " " ++ text ++ "\n"

/-- The line of a step that had nothing to change. -/
def idle (e : Environment) (text : String) : String :=
  e.paint .yellow "⊙" ++ " " ++ text ++ "\n"

end Environment
end Graft.Command
