import Graft.Config.Source
import Graft.File.Resolution

/-! # Configuration files

An explicitly named file decides alone; without one the project's own file does; without
either the built-in configuration holds.
-/
namespace Graft.Config
open File

/-- The name of the configuration file in a project's directory. -/
def fileName : String := "buildscript-injector.toml"

def loadFile (v : View) (origin : Origin) (path : String) : Except LoadError Config :=
  match v.readText path with
  | .error e => .error ⟨origin, .unreadable e⟩
  | .ok text => load origin text

def loadExplicit (v : View) (path : String) : Except LoadError Config :=
  loadFile v (.explicit path) path

def loadForProject (v : View) (dir : String) (explicit? : Option String) :
    Except LoadError Config :=
  match explicit? with
  | some path => loadExplicit v path
  | none =>
    let candidate := Path.join dir fileName
    if v.isFile candidate then loadFile v (.project candidate) candidate else .ok {}

end Graft.Config
