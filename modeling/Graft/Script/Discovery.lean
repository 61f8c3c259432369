import Graft.Script.Basic

/-! # Discovery of build scripts

The build scripts of a project are the regular files with a build script's name at most
eight levels below its directory.  Directories that hold output, state or other people's
code are not entered, and links are not followed.
-/
namespace Graft.Script
open File

/-- The names of directories that hold no build scripts worth touching. -/
def skippedDirs : List String :=
  ["build", ".gradle", "buildSrc", ".git", ".idea", "node_modules"]

def isScriptName (name : String) : Bool :=
  name = Dialect.groovy.scriptName || name = Dialect.kotlin.scriptName

/-- The scripts among named nodes and at most `depth - 1` levels below them. -/
def among : (depth : Nat) → List (String × Node) → List Location
  | 0, _ => []
  | depth + 1, entries =>
    entries.flatMap fun (name, node) =>
      match node with
      | .file _ => if isScriptName name then [[name]] else []
      | .link _ => []
      | .dir inner =>
        if skippedDirs.contains name then [] else (among depth inner).map (name :: ·)

def maxDepth : Nat := 8

/-- Orders locations name by name. -/
def sorted (locations : List Location) : List Location :=
  locations.mergeSort fun a b => !decide (b < a)

/-- The locations of the scripts relative to the directory.  The directory's own path may
lead through a link, and a path that names a script's file is that script. -/
def locate (v : View) (dir : String) : Except Error (List Location) := do
  match ← (v.nodeItself dir).mapError (.unwalkable dir) with
  | .file _ => return if (Path.lastName? dir).any isScriptName then [[]] else []
  | .dir entries => return sorted (among maxDepth entries)
  | .link _ =>
    let node ← (v.node dir).mapError (.unwalkable dir)
    return sorted (among maxDepth node.entries)

/-- The paths of a project's build scripts, in order. -/
def discover (v : View) (dir : String) : Except Error (List String) := do
  return (← locate v dir).map fun location => location.foldl Path.join dir

end Graft.Script
