import Graft.File.Resolution

/-! # Replacing a file

A file is replaced in two steps: the new content is written under a name that its directory
does not hold yet, and the file of that name then takes the place of the old entry.
-/
namespace Graft.File

/-- Gives the file `old` of a directory the name `new`.  What had that name is replaced; a
directory is not. -/
def Node.rename (root : Node) (dir : Location) (old new : String) : Except Error Node :=
  match root.at? (dir ++ [old]), root.at? (dir ++ [new]) with
  | none, _ => .error .notFound
  | some _, some (.dir _) => .error .isDirectory
  | some node, _ => .ok ((root.remove (dir ++ [old])).put (dir ++ [new]) node)

namespace View

/-- The named nodes of the directory at a location. -/
def entriesAt (v : View) (location : Location) : List (String × Node) :=
  ((v.root.at? location).map Node.entries).getD []

/-- Puts a new file in the place of the entry that a path names; a link there is replaced
and not followed. -/
def replaceFile (v : View) (path : String) (content : ByteArray) : Except Error Node := do
  let (parent, name) ← v.entry path
  let temporary := Named.unusedName (v.entriesAt parent)
  (v.root.put (parent ++ [temporary]) (.file content)).rename parent temporary name

end View
end Graft.File
