import Graft.Command.Arguments
import Graft.Command.Project
import Graft.Injection

/-! # The status command

Reports for each build script of a project whether it declares the plugin and, if not,
whether it has a block to declare it in.
-/
namespace Graft.Command
open File

inductive Standing
  | declared
  | blockPresent
  | noBlock
deriving DecidableEq, Repr

/-- How a script stands to the plugin. -/
def standing (c : Config) (content : String) : Standing :=
  if c.declares content then .declared
  else if (c.insertionPoint? content c.target.marker).isSome then .blockPresent
  else .noBlock

def standingLine (e : Environment) (c : Config) (shown : String) : Standing → String
  | .declared =>
    let text := e.paint .green "DECLARED"
    e.paint .green "✓" ++ s!" {shown} ({text})\n"
  | .blockPresent =>
    let text := e.paint .yellow s!"NOT DECLARED, '{c.target.marker}' block present"
    e.paint .yellow "⊙" ++ s!" {shown} ({text})\n"
  | .noBlock =>
    let text := e.paint .cyan s!"NOT DECLARED, no '{c.target.marker}' block"
    e.paint .cyan "⊘" ++ s!" {shown} ({text})\n"

/-- The lines for some scripts and the number of those that declare the plugin, up to the
first script that cannot be read. -/
def survey (e : Environment) (c : Config) (project : Location) :
    List Location → String × Nat × Option Script.Error
  | [] => ("", 0, none)
  | location :: rest =>
    match Script.load id e.view (project ++ location).path with
    | .error failure => ("", 0, some failure)
    | .ok script =>
      let found := standing c script.content
      let (lines, count, failure?) := survey e c project rest
      (standingLine e c ("/".intercalate location) found ++ lines,
        (if found = .declared then 1 else 0) + count, failure?)

def statusHeader (e : Environment) (c : Config) (project : Location) : String :=
  e.paint .bold "Build Script Status Report" ++ "\n" ++
  s!"Project: {project.path}\nPlugin: {c.plugin.moduleName}\n\n"

def summary (e : Environment) (declared total : Nat) : String :=
  let others := total - declared
  "\n" ++ e.paint .bold "Summary:" ++ "\n" ++
  "  " ++ e.paint .green s!"{declared}" ++ " declared\n" ++
  "  " ++ e.paint .yellow s!"{others}" ++ " not declared\n"

/-- What the report is about. -/
def statusSubject (e : Environment) (options : StatusOptions) :
    Except Failure (Location × Config × List Location) := do
  let project ← projectDir e.view options.project
  let config ← projectConfig e.view project options.config
  let scripts ← (Script.locate e.view project.path).mapError .ofScriptError
  if scripts.isEmpty then
    throw (.error s!"No build scripts found under {project.path}" none)
  return (project, config, scripts)

def status (e : Environment) (options : StatusOptions) : Outcome :=
  match statusSubject e options with
  | .error failure => e.finish "" (some failure)
  | .ok (project, config, scripts) =>
    let (lines, declared, failure?) := survey e config project scripts
    let header := statusHeader e config project
    match failure? with
    | some failure => e.finish (header ++ lines) (some (.ofScriptError failure))
    | none => e.finish (header ++ lines ++ summary e declared scripts.length) none

end Graft.Command
