import Graft.Command.Project
import Graft.Injection
import Graft.Scan.Strip
import Graft.Text.Line

/-! # Commands on a single file

Printing a file without its comments, and locating a text in its code.
-/
namespace Graft.Command
open File

/-- The configuration in a named file, or the built-in one. -/
def sourceConfig (v : View) : Option String → Except Failure Config
  | some path => (Config.loadExplicit v path).mapError .ofLoadError
  | none => .ok {}

def sourceText (v : View) (file : String) : Except Failure String :=
  (v.readText file).mapError fun cause =>
    .error s!"failed to read {file}" (some cause.message)

def source (v : View) (file : String) (config? : Option String) :
    Except Failure (Config × String) := do
  let config ← sourceConfig v config?
  return (config, ← sourceText v file)

def strip (e : Environment) (file : String) (config? : Option String) : Outcome :=
  match source e.view file config? with
  | .error failure => e.finish "" (some failure)
  | .ok (config, text) => e.finish (Scan.strip config.lexicon (Text.records text)) none

def locate (e : Environment) (file needle : String) (config? : Option String) : Outcome :=
  match source e.view file config? with
  | .error failure => e.finish "" (some failure)
  | .ok (config, text) =>
    match config.findInCode? text needle with
    | some offset => e.finish s!"{offset}\n" none
    | none =>
      let sign := e.paint .red "✗"
      e.finish "" (some (.remark
        s!"{sign} '{needle}' not found outside comments and literals in {file}\n"))

end Graft.Command
