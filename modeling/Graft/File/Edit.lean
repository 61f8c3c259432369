import Graft.File.Resolution

/-! # Edits of a file tree

Files, directories and links that someone puts into a tree or takes out of it.  Missing
parent directories are created.
-/
namespace Graft.File.View

/-- The location that a path names or, when nothing is there yet, would name. -/
def target (v : View) (path : String) (parts : List String) : Except Error Location := do
  let (location, missing) ← reach v.root maxLinks (v.start path) parts
  return location ++ missing.filter fun part => !Path.isIdle part

/-- Writes a file; a link at the end of the path is followed. -/
def writeFile (v : View) (path : String) (content : ByteArray) : Except Error Node := do
  let location ← v.target path (Path.parts path)
  match v.root.at? location with
  | some (.dir _) => throw .isDirectory
  | _ => return v.root.put location (.file content)

def makeDir (v : View) (path : String) : Except Error Node := do
  let location ← v.target path (Path.parts path)
  match v.root.at? location with
  | some (.dir _) => return v.root
  | some _ => throw .notDirectory
  | none => return v.root.put location .empty

/-- Puts a link in the place of the entry that a path names. -/
def makeLink (v : View) (path target : String) : Except Error Node := do
  match Path.lastName? path with
  | none => throw .isDirectory
  | some name =>
    let parent ← v.target path (Path.parts path).dropLast
    return v.root.put (parent ++ [name]) (.link target)

/-- Takes away a file, a link or a whole directory. -/
def removeEntry (v : View) (path : String) : Except Error Node := do
  let (parent, name) ← v.entry path
  return v.root.remove (parent ++ [name])

end Graft.File.View
