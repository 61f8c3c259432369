/-! # Paths

A path is a text whose parts are separated by slashes.  A location is the list of names that
lead from the root of a file tree to one of its nodes.
-/
namespace Graft.File

abbrev Location := List String

namespace Path

def isAbsolute (path : String) : Bool :=
  path.toList.head? = some '/'

/-- The parts between the slashes of a path. -/
def parts (path : String) : List String :=
  (path.toList.splitOn '/').map String.ofList

/-- A path below a directory; an absolute one stands for itself. -/
def join (dir path : String) : String :=
  if isAbsolute path || dir.isEmpty then path
  else if dir.toList.getLast? = some '/' then dir ++ path
  else dir ++ "/" ++ path

/-- A part that leads to where it starts. -/
def isIdle (part : String) : Bool :=
  part = "" || part = "."

/-- The name that a path ends in, if it ends in one. -/
def lastName? (path : String) : Option String :=
  (parts path).getLast?.filter fun part => !isIdle part && part ≠ ".."

end Path

/-- The absolute path of a location. -/
def Location.path (location : Location) : String :=
  "/" ++ "/".intercalate location

end Graft.File
