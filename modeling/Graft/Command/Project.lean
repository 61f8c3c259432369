import Graft.Command.Basic
import Graft.Config.File
import Graft.Guard
import Graft.Script.Discovery

/-! # The project of a run

Finding the project's directory and its configuration, and the reports of what may go wrong
there.
-/
namespace Graft.Command
open File

namespace Failure

def ofLoadError (e : Config.LoadError) : Failure :=
  .error e.message (some e.cause.message)

def ofGuardError (e : Guard.Error) : Failure :=
  .error e.message e.source?

def ofScriptError (e : Script.Error) : Failure :=
  .error e.message e.source?

end Failure

/-- The canonical directory of the project; without a path it is the working directory. -/
def projectDir (v : View) (path? : Option String) : Except Failure Location :=
  let path := path?.getD v.working.path
  (v.resolve path).mapError fun cause =>
    .error s!"project directory {path} does not exist" (some cause.message)

def projectConfig (v : View) (project : Location) (explicit? : Option String) :
    Except Failure Config :=
  (Config.loadForProject v project.path explicit?).mapError .ofLoadError

end Graft.Command
