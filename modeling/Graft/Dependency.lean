import Graft.Text.Blank

/-! # Dependency notation

A resolved dependency is written `group:name` or `group:name:version`.  Reading accepts
blanks around the whole notation and refuses an empty part.
-/
namespace Graft

/-- A dependency of a build; a file dependency has no group. -/
structure Dependency where
  group : Option String
  name : String
  version : Option String
deriving DecidableEq, Repr

namespace Dependency

/-- The written form. -/
def render (d : Dependency) : String :=
  ((d.group.map (· ++ ":")).getD "") ++ d.name ++ ((d.version.map (":" ++ ·)).getD "")

/-- A text that is no dependency notation. -/
structure ParseError where
  input : String
deriving DecidableEq, Repr

def ParseError.message (e : ParseError) : String :=
  s!"invalid dependency '{e.input}': expected group:name[:version]"

/-- Reads two or three parts joined by colons, none of them empty. -/
def parse (input : String) : Except ParseError Dependency :=
  let parts := (Text.trimBlanks input.toList).splitOn ':'
  if parts.any List.isEmpty then .error ⟨input⟩
  else
    match parts.map String.ofList with
    | [group, name] => .ok ⟨some group, name, none⟩
    | [group, name, version] => .ok ⟨some group, name, some version⟩
    | _ => .error ⟨input⟩

def isModule (d : Dependency) (group name : String) : Bool :=
  d.name = name && d.group = some group

end Dependency

/-- Whether one of the dependencies has both the group and the name. -/
def hasModule (dependencies : List Dependency) (group name : String) : Bool :=
  dependencies.any (·.isModule group name)

end Graft
