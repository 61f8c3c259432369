import Graft.Dialect
import Graft.File.Replacement

/-! # Build scripts in files

A script remembers a fingerprint of the bytes it was loaded from.  Saving a changed text
compares fingerprints first, so a file that someone else has edited since is never
overwritten.
-/
namespace Graft

/-- A build script as it was loaded. -/
structure Script (F : Type) where
  path : String
  dialect : Dialect
  content : String
  fingerprint : F
deriving DecidableEq, Repr

namespace Script

inductive Error
  | unreadable (path : String) (cause : File.Error)
  | notUtf8 (path : String)
  | changedOnDisk (path : String)
  | noRootScript (dir : String)
  | unwalkable (dir : String) (cause : File.Error)
  | noDialect (e : Dialect.Unsupported)
deriving DecidableEq, Repr

namespace Error

def message : Error → String
  | unreadable path cause => s!"I/O error on {path}: {cause.message}"
  | notUtf8 path => s!"{path} is not valid UTF-8"
  | changedOnDisk path => s!"{path} changed on disk since it was read; refusing to overwrite"
  | noRootScript dir => s!"no build.gradle or build.gradle.kts in {dir}"
  | unwalkable dir cause =>
    s!"failed to walk {dir}: IO error for operation on {dir}: {cause.message}"
  | noDialect e => e.message

/-- The error behind an error, if there is one. -/
def source? : Error → Option String
  | unreadable _ cause => some cause.message
  | unwalkable dir cause => some s!"IO error for operation on {dir}: {cause.message}"
  | _ => none

end Error

inductive SaveResult
  | written (path : String) (bytes : Nat)
  | unchanged (path : String)
deriving DecidableEq, Repr

variable {F : Type}

def load (fingerprint : ByteArray → F) (v : File.View) (path : String) :
    Except Error (Script F) := do
  let dialect ← (Dialect.ofPath path).mapError .noDialect
  let bytes ← (v.readBytes path).mapError (.unreadable path)
  match String.fromUTF8? bytes with
  | none => throw (.notUtf8 path)
  | some content => return ⟨path, dialect, content, fingerprint bytes⟩

/-- Replaces the file's content.  The result comes with the tree as it is then. -/
def save [DecidableEq F] (fingerprint : ByteArray → F) (v : File.View) (script : Script F)
    (content : String) : Except Error (SaveResult × File.Node) := do
  if content = script.content then return (.unchanged script.path, v.root)
  let bytes ← (v.readBytes script.path).mapError (.unreadable script.path)
  if fingerprint bytes ≠ script.fingerprint then throw (.changedOnDisk script.path)
  let root ← (v.replaceFile script.path content.toUTF8).mapError (.unreadable script.path)
  return (.written script.path content.utf8ByteSize, root)

/-- The path of a project's root build script; the Kotlin script wins when both exist. -/
def findRoot (v : File.View) (dir : String) : Except Error String :=
  let candidates := [Dialect.kotlin, Dialect.groovy].map fun dialect =>
    File.Path.join dir dialect.scriptName
  match candidates.find? v.isFile with
  | some path => .ok path
  | none => .error (.noRootScript dir)

end Script
end Graft
