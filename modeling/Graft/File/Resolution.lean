import Graft.File.Error
import Graft.File.Tree

/-! # Resolution of paths

A path is read part by part from a location; links met on the way are followed, at most
forty of them.  A path resolves to the location of an existing node that no link leads to:
its canonical location.
-/
namespace Graft.File
open Named

/-- The number of links that one resolution may follow. -/
def maxLinks : Nat := 40

/-- Follows the parts of a path from a location as far as nodes exist.  The result is the
location reached and the parts from the first missing one on. -/
def reach (root : Node) (links : Nat) (here : Location) (parts : List String) :
    Except Error (Location × List String) :=
  match parts with
  | [] => .ok (here, [])
  | part :: rest =>
    match root.at? here with
    | some (.dir entries) =>
      if Path.isIdle part then reach root links here rest
      else if part = ".." then reach root links here.dropLast rest
      else
        match get? part entries with
        | none => .ok (here, part :: rest)
        | some (.link target) =>
          match links with
          | 0 => .error .tooManyLinks
          | links + 1 =>
            reach root links (if Path.isAbsolute target then [] else here)
              (Path.parts target ++ rest)
        | some _ => reach root links (here ++ [part]) rest
    | _ => .error .notDirectory
  termination_by (links, parts.length)

/-- A tree seen from a working directory, where relative paths start. -/
structure View where
  root : Node
  working : Location := []

namespace View

def start (v : View) (path : String) : Location :=
  if Path.isAbsolute path then [] else v.working

/-- The canonical location of the node that a path names. -/
def resolve (v : View) (path : String) : Except Error Location :=
  if path.isEmpty then .error .notFound
  else
    match reach v.root maxLinks (v.start path) (Path.parts path) with
    | .error e => .error e
    | .ok (location, []) => .ok location
    | .ok (_, _ :: _) => .error .notFound

/-- The node that a path names, behind all links. -/
def node (v : View) (path : String) : Except Error Node := do
  match v.root.at? (← v.resolve path) with
  | some node => return node
  | none => throw .notFound

/-- The directory and the name of the entry that a path names. -/
def entry (v : View) (path : String) : Except Error (Location × String) := do
  match Path.lastName? path with
  | none => throw .isDirectory
  | some name =>
    match reach v.root maxLinks (v.start path) (Path.parts path).dropLast with
    | .error e => throw e
    | .ok (_, _ :: _) => throw .notFound
    | .ok (parent, []) =>
      match v.root.at? parent with
      | some (.dir _) => return (parent, name)
      | _ => throw .notDirectory

/-- The node that a path names, where a link at its end stands for itself. -/
def nodeItself (v : View) (path : String) : Except Error Node := do
  if (Path.lastName? path).isNone then v.node path
  else
    let (parent, name) ← v.entry path
    match v.root.at? (parent ++ [name]) with
    | some node => return node
    | none => throw .notFound

def isFile (v : View) (path : String) : Bool :=
  match v.node path with
  | .ok node => node.isFile
  | .error _ => false

def readBytes (v : View) (path : String) : Except Error ByteArray := do
  match ← v.node path with
  | .file content => return content
  | .dir _ => throw .isDirectory
  | .link _ => throw .tooManyLinks

def readText (v : View) (path : String) : Except Error String := do
  match String.fromUTF8? (← v.readBytes path) with
  | some text => return text
  | none => throw .notText

end View
end Graft.File
