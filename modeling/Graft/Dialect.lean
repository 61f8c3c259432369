/-! # Dialects of build scripts

The ending of a file's path tells the language its script is written in.
-/
namespace Graft

inductive Dialect
  | groovy
  | kotlin
deriving DecidableEq, Repr

namespace Dialect

def name : Dialect → String
  | groovy => "groovy"
  | kotlin => "kotlin"

def ending : Dialect → String
  | groovy => ".gradle"
  | kotlin => ".gradle.kts"

/-- The name of a project's root build script. -/
def scriptName : Dialect → String
  | groovy => "build.gradle"
  | kotlin => "build.gradle.kts"

def endsPath (dialect : Dialect) (path : String) : Bool :=
  dialect.ending.toList.isSuffixOf path.toList

/-- A path whose ending belongs to no dialect. -/
structure Unsupported where
  path : String
deriving DecidableEq, Repr

def Unsupported.message (e : Unsupported) : String :=
  s!"could not determine the build script dialect of {e.path}: " ++
    "expected a .gradle or .gradle.kts file"

def ofPath (path : String) : Except Unsupported Dialect :=
  if kotlin.endsPath path then .ok kotlin
  else if groovy.endsPath path then .ok groovy
  else .error ⟨path⟩

end Dialect
end Graft
