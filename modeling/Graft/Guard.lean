import Graft.File.Resolution

/-! # The project guard

A guard remembers a project's canonical directory and the canonical directories in it, and
in the user's home, that no edit may reach.  A path passes when it leads to a node at or
below the first and not at or below any of the others.
-/
namespace Graft
open File

structure Guard where
  root : Location
  forbidden : List Location
deriving DecidableEq, Repr

namespace Guard

inductive Error
  | outsideProject (location project : Location)
  | inForbidden (location forbidden : Location)
  | unresolved (cause : File.Error)
deriving DecidableEq, Repr

namespace Error

def message : Error → String
  | outsideProject location project =>
    s!"Path is outside project: {location.path} (project: {project.path})"
  | inForbidden location forbidden =>
    s!"Path is in forbidden directory: {location.path} (forbidden: {forbidden.path})"
  | unresolved cause => s!"Failed to canonicalize path: {cause.message}"

/-- The error behind an error, if there is one. -/
def source? : Error → Option String
  | unresolved cause => some cause.message
  | _ => none

end Error

/-- The paths of the directories that must stay untouched. -/
def protectedPaths (home : String) (root : Location) : List String :=
  [Path.join home ".gradle", Path.join root.path "build", Path.join root.path ".gradle"]

/-- The guard of the project in a directory.  Only protected directories that exist by now
are known to it. -/
def create (v : View) (home dir : String) : Except Error Guard := do
  let root ← (v.resolve dir).mapError .unresolved
  return ⟨root, (protectedPaths home root).filterMap fun path => (v.resolve path).toOption⟩

/-- The canonical location of a path that may be written. -/
def check (g : Guard) (v : View) (path : String) : Except Error Location := do
  let location ← (v.resolve (Path.join g.root.path path)).mapError .unresolved
  if !g.root.isPrefixOf location then throw (.outsideProject location g.root)
  match g.forbidden.find? (·.isPrefixOf location) with
  | some forbidden => throw (.inForbidden location forbidden)
  | none => return location

end Guard
end Graft
