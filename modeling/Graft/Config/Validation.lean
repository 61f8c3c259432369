import Graft.Config.Basic
import Graft.Text.Blank
import Graft.Version

/-! # Validation

The issues that make a configuration unusable, in a fixed order.  A configuration is valid
when it has none.
-/
namespace Graft.Config

/-- Two markers that the scanner could not tell apart. -/
inductive Clash
  | commentMarkers
  | quotes
deriving DecidableEq, Repr

def Clash.message : Clash → String
  | commentMarkers => "line_comment and block_open must differ"
  | quotes => "string_quote and char_quote must differ"

inductive Issue
  | emptyField (field : String)
  | missingPlaceholder (field : String) (placeholder : Placeholder)
  | invalidVersion (version : String) (cause : Version.Error)
  | conflictingMarkers (clash : Clash)
deriving DecidableEq, Repr

def Issue.message : Issue → String
  | emptyField field => s!"{field} must not be empty"
  | missingPlaceholder field placeholder => s!"{field} must contain {placeholder.text}"
  | invalidVersion version cause =>
    s!"plugin.version '{version}' is not a semantic version: {cause.message}"
  | conflictingMarkers clash => s!"lexicon: {clash.message}"

/-- The issues of a configuration as one line. -/
def issuesMessage (issues : List Issue) : String :=
  "; ".intercalate (issues.map Issue.message)

/-- The issue of a field that holds nothing but blanks. -/
def requireText (field value : String) : List Issue :=
  if Text.allBlank value then [.emptyField field] else []

def requirePlaceholder (field template : String) (placeholder : Placeholder) : List Issue :=
  if Text.contains placeholder.text.toList template.toList then []
  else [.missingPlaceholder field placeholder]

/-- A version that is blank has been reported as an empty field already. -/
def requireVersion (version : String) : List Issue :=
  if Text.allBlank version then []
  else
    match Version.parse version with
    | .ok _ => []
    | .error cause => [.invalidVersion version cause]

def requireDistinct (l : Scan.Lexicon) : List Issue :=
  (if l.lineComment ≠ "" ∧ l.lineComment = l.blockOpen then
    [.conflictingMarkers .commentMarkers] else []) ++
  (if l.stringQuote = l.charQuote then [.conflictingMarkers .quotes] else [])

def requireTask : Option TaskEntry → List Issue
  | none => []
  | some task =>
    requireText "append.task.name" task.name ++ requireText "append.task.class" task.className

def requireScript : Option String → List Issue
  | none => []
  | some script => requireText "append.script" script

def issues (c : Config) : List Issue :=
  requireText "target.marker" c.target.marker ++
  requireText "plugin.group" c.plugin.group ++
  requireText "plugin.name" c.plugin.name ++
  requireText "plugin.version" c.plugin.version ++
  requireText "lexicon.line_comment" c.lexicon.lineComment ++
  requireText "lexicon.block_open" c.lexicon.blockOpen ++
  requireText "lexicon.block_close" c.lexicon.blockClose ++
  requireVersion c.plugin.version ++
  requirePlaceholder "templates.dependency" c.templates.dependency .coordinate ++
  requirePlaceholder "templates.groovy.apply" c.templates.groovy.apply .script ++
  requirePlaceholder "templates.kotlin.apply" c.templates.kotlin.apply .script ++
  requirePlaceholder "templates.groovy.task" c.templates.groovy.task .taskName ++
  requirePlaceholder "templates.kotlin.task" c.templates.kotlin.task .taskName ++
  requireDistinct c.lexicon ++
  requireTask c.append.task ++
  requireScript c.append.script

/-- Accepts a configuration without issues. -/
def validate (c : Config) : Except (List Issue) Unit :=
  if c.issues.isEmpty then .ok () else .error c.issues

theorem validate_eq_ok_iff {c : Config} : c.validate = .ok () ↔ c.issues = [] := by
  simp [validate]

end Graft.Config
