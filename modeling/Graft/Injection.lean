import Graft.Config.Basic
import Graft.Scan.Search
import Graft.Text.Blank

/-! # Declaring the plugin in a script

A script that does not name the plugin outside its comments gets the declaration spliced in
behind the target marker, or a new block in front when no marker stands in code.  Statements
are appended at the end unless they are there already.
-/
namespace Graft

inductive Injection.Outcome
  | alreadyPresent
  | updatedBlock
  | prependedBlock
deriving DecidableEq, Repr

structure Injection where
  content : String
  outcome : Injection.Outcome
deriving DecidableEq, Repr

def Injection.changed (i : Injection) : Bool :=
  i.outcome ≠ .alreadyPresent

/-- A text with `inserted` put in at a byte offset. -/
def spliceAt (content : String) (offset : Nat) (inserted : String) : String :=
  .ofList (Text.takeBytes offset content.toList ++ inserted.toList ++
    Text.dropBytes offset content.toList)

namespace Config
open Scan

def classify (c : Config) (content : String) : Classification :=
  .of c.lexicon content

/-- The first place of the needle clear of comments and literals. -/
def findInCode? (c : Config) (content needle : String) : Option Nat :=
  (c.classify content).findInCode? needle content

/-- The offset just behind the first place of the marker in code. -/
def insertionPoint? (c : Config) (content marker : String) : Option Nat :=
  (c.findInCode? content marker).map (· + Text.byteLength marker.toList)

/-- The script with the declaration behind the target marker, if the marker stands in code. -/
def updateBlock? (c : Config) (content : String) : Option String :=
  (c.insertionPoint? content c.target.marker).map fun offset =>
    spliceAt content offset c.declaration

/-- Whether the plugin is named outside comments.  Literals count: a coordinate is usually
written as one. -/
def declares (c : Config) (content : String) : Bool :=
  ((c.classify content).findUncommented? c.plugin.moduleName content).isSome

def inject (c : Config) (content : String) : Injection :=
  if c.declares content then ⟨content, .alreadyPresent⟩
  else
    match c.updateBlock? content with
    | some updated => ⟨updated, .updatedBlock⟩
    | none => ⟨c.standaloneBlock ++ content, .prependedBlock⟩

/-- The script with the statement appended, or nothing when its trimmed text is empty or
stands outside comments already. -/
def ensure? (c : Config) (content statement : String) : Option String :=
  let needle := Text.trim statement
  if needle.isEmpty then none
  else if ((c.classify content).findUncommented? needle content).isSome then none
  else some (content ++ statement)

/-- The statements to append to a script of a dialect, in order. -/
def statements (c : Config) (dialect : Dialect) : List String :=
  (c.append.script.map (c.applyStatement dialect)).toList ++
    (c.append.task.map fun task => c.taskStatement dialect task.name task.className).toList

/-- The script with every statement ensured in turn. -/
def ensureAll (c : Config) (content : String) (statements : List String) : String :=
  statements.foldl (fun content statement => (c.ensure? content statement).getD content) content

/-- The whole run on a script: the plugin is declared, then the statements are ensured. -/
def run (c : Config) (dialect : Dialect) (content : String) : String :=
  c.ensureAll (c.inject content).content (c.statements dialect)

end Config
end Graft
