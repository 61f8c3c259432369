import Graft.Command.Inject
import Graft.Command.Source
import Graft.Command.Status

/-! # Running a command line

The answer of a command line is an exit code and the texts on the two output streams,
together with the file tree that the run leaves behind.
-/
namespace Graft.Command

structure Answer where
  root : File.Node
  code : Nat
  output : String
  errors : String

def Outcome.answer (o : Outcome) : Answer :=
  match o.failure? with
  | none => ⟨o.root, 0, o.printed, ""⟩
  | some failure => ⟨o.root, 1, o.printed, failure.text⟩

def outcome (e : Environment) : Request → Outcome
  | .inject options => inject e options
  | .status options => status e options
  | .strip file config => strip e file config
  | .locate file needle config => locate e file needle config

def versionText : String := "buildscript-injector 0.1.0\n"

/-- Runs a command line. -/
def run (e : Environment) (arguments : List String) : Answer :=
  match parse e.projectVariable arguments with
  | .ok request => (outcome e request).answer
  | .error .version => ⟨e.view.root, 0, versionText, ""⟩
  | .error .help => ⟨e.view.root, 0, "", ""⟩
  | .error .usage => ⟨e.view.root, 2, "", ""⟩

end Graft.Command
