import Graft.Dialect
import Graft.Scan.Lexicon
import Graft.Text.Occurrence

/-! # Configuration

What to declare, where to put it and how to write it: the marker that opens the target
block, the plugin, the statement templates with their placeholders, the lexicon of the
scripts, and the statements to append at a script's end.
-/
namespace Graft

/-- The placeholders that templates may contain. -/
inductive Placeholder
  | coordinate
  | script
  | taskName
  | taskClass
deriving DecidableEq, Repr

def Placeholder.text : Placeholder → String
  | coordinate => "\x7bcoordinate\x7d"
  | script => "\x7bscript\x7d"
  | taskName => "\x7bname\x7d"
  | taskClass => "\x7bclass\x7d"

namespace Config

structure Target where
  marker : String := "buildscript \x7b"
deriving DecidableEq, Repr

structure Plugin where
  group : String := "io.bitrise.trace.plugin"
  name : String := "trace-gradle-plugin"
  version : String := "0.0.8"
deriving DecidableEq, Repr

namespace Plugin

/-- The part of the coordinate that identifies the plugin whatever its version. -/
def moduleName (p : Plugin) : String :=
  p.group ++ ":" ++ p.name

def coordinate (p : Plugin) : String :=
  p.group ++ ":" ++ p.name ++ ":" ++ p.version

end Plugin

/-- The statements that each dialect writes in its own way.  Without a template the
statement is empty. -/
structure Statements where
  apply : String := ""
  task : String := ""
deriving DecidableEq, Repr

structure Templates where
  dependency : String :=
    "\n    dependencies \x7b\n        classpath(\"\x7bcoordinate\x7d\")\n    \x7d"
  repository : String := "\n    repositories \x7b\n        mavenCentral()\n    \x7d"
  groovy : Statements :=
    ⟨"\napply from: \"\x7bscript\x7d\"", "\n\ntask \x7bname\x7d(type: \x7bclass\x7d)"⟩
  kotlin : Statements :=
    ⟨"\napply(\"\x7bscript\x7d\")", "\n\ntasks.register<\x7bclass\x7d>(\"\x7bname\x7d\")"⟩
deriving DecidableEq, Repr

def Templates.statements (t : Templates) : Dialect → Statements
  | .groovy => t.groovy
  | .kotlin => t.kotlin

/-- A task to register under a name. -/
structure TaskEntry where
  name : String
  className : String
deriving DecidableEq, Repr

/-- What to append at the end of the root build script. -/
structure Append where
  script : Option String := none
  task : Option TaskEntry := none
deriving DecidableEq, Repr

end Config

structure Config where
  target : Config.Target := {}
  plugin : Config.Plugin := {}
  templates : Config.Templates := {}
  lexicon : Scan.Lexicon := {}
  append : Config.Append := {}
deriving DecidableEq, Repr

namespace Config

/-- A template with its placeholder replaced by a value. -/
def fill (template : String) (placeholder : Placeholder) (value : String) : String :=
  Text.substitute placeholder.text value template

/-- The dependency declaration and the repositories that serve it. -/
def declaration (c : Config) : String :=
  fill c.templates.dependency .coordinate c.plugin.coordinate ++ c.templates.repository

/-- A complete target block that holds the declaration. -/
def standaloneBlock (c : Config) : String :=
  c.target.marker ++ c.declaration ++ "\n\x7d\n"

def applyStatement (c : Config) (dialect : Dialect) (script : String) : String :=
  fill (c.templates.statements dialect).apply .script script

/-- The name is filled in first, so a class placeholder inside it is filled in too. -/
def taskStatement (c : Config) (dialect : Dialect) (name className : String) : String :=
  fill (fill (c.templates.statements dialect).task .taskName name) .taskClass className

end Config
end Graft
