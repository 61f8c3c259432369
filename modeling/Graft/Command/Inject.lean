import Graft.Command.Arguments
import Graft.Command.Project
import Graft.Diff.Change
import Graft.Injection

/-! # The inject command

Declares the plugin in the project's root build script.  Everything that is read is read
first; then the new text is computed, and at last the script is saved.
-/
namespace Graft.Command
open File

/-- A run tells contents apart by all of their bytes. -/
def fingerprint (bytes : ByteArray) : List UInt8 :=
  bytes.data.toList

/-- All that a run reads before it changes anything. -/
structure Job where
  project : Location
  config : Config
  script : Script (List UInt8)

/-- Finds the script to change.  The guard checks its canonical location, and that is what
is read. -/
def prepare (e : Environment) (options : InjectOptions) : Except Failure Job := do
  let v := e.view
  let project ← projectDir v options.project
  let config ← projectConfig v project options.config
  let guard ← (Guard.create v e.home project.path).mapError .ofGuardError
  let path ← (Script.findRoot v project.path).mapError .ofScriptError
  let location ← (guard.check v path).mapError .ofGuardError
  let script ← (Script.load fingerprint v location.path).mapError .ofScriptError
  return ⟨project, config, script⟩

/-- A line of a difference ends in a line end even where the text does not. -/
def terminatedLine (line : String) : String :=
  match line.toList.getLast? with
  | some '\n' | some '\r' => line
  | _ => line ++ "\n"

def changeText (e : Environment) (change : Diff.Change) : String :=
  let line := terminatedLine change.line
  match change.sign with
  | .kept => " " ++ line
  | .deleted => e.paint .red ("-" ++ line)
  | .inserted => e.paint .green ("+" ++ line)

def diffText (e : Environment) (path old new : String) : String :=
  "\n" ++ e.paint .dimmed s!"--- {path} (original)" ++ "\n" ++
  e.paint .dimmed s!"+++ {path} (injected)" ++ "\n" ++
  String.join ((Diff.changes old new).map (changeText e)) ++ "\n"

/-- The lines that tell what becomes of each statement. -/
def statementLines (e : Environment) (c : Config) (content : String) : List String → String
  | [] => ""
  | statement :: rest =>
    match c.ensure? content statement with
    | some updated =>
      e.done s!"Appended: {Text.trim statement}" ++ statementLines e c updated rest
    | none =>
      e.idle s!"Already present: {Text.trim statement}" ++ statementLines e c content rest

def saveLine (e : Environment) : Script.SaveResult → String
  | .written path bytes => e.done s!"Wrote {path} ({bytes} bytes)"
  | .unchanged path => e.idle s!"{path} is up to date"

namespace Job

def header (j : Job) : String :=
  s!"Project: {j.project.path}\n" ++
  s!"Build script: {j.script.path} ({j.script.dialect.name})\n" ++
  s!"Plugin: {j.config.plugin.coordinate}\n\n"

/-- The text that the run gives the script. -/
def result (j : Job) : String :=
  j.config.run j.script.dialect j.script.content

def outcomeLine (e : Environment) (j : Job) : Injection.Outcome → String
  | .alreadyPresent => e.idle "Plugin already declared"
  | .updatedBlock => e.done s!"Declared plugin in existing '{j.config.target.marker}' block"
  | .prependedBlock =>
    e.done s!"No '{j.config.target.marker}' block found, prepended a new one"

/-- What is printed before the script is saved. -/
def report (e : Environment) (j : Job) : String :=
  let injection := j.config.inject j.script.content
  j.header ++ j.outcomeLine e injection.outcome ++
    statementLines e j.config injection.content (j.config.statements j.script.dialect)

/-- What is printed after the script has been saved. -/
def diffReport (e : Environment) (j : Job) (shown : Bool) : String :=
  if shown && j.result ≠ j.script.content then
    diffText e j.script.path j.script.content j.result
  else ""

end Job

/-- Carries a job out. -/
def perform (e : Environment) (options : InjectOptions) (j : Job) : Outcome :=
  let plugin := j.config.plugin
  if hasModule options.resolved plugin.group plugin.name then
    e.finish (j.header ++ e.idle s!"{plugin.moduleName} is already on the build classpath") none
  else if options.dryRun then
    let remark := e.paint .cyan "[DRY RUN - no files were modified]" ++ "\n"
    e.finish (j.report e ++ remark ++ j.diffReport e options.diff) none
  else
    match j.script.save fingerprint e.view j.result with
    | .error failure => e.finish (j.report e) (some (.ofScriptError failure))
    | .ok (saved, root) =>
      ⟨root, j.report e ++ saveLine e saved ++ j.diffReport e options.diff, none⟩

def inject (e : Environment) (options : InjectOptions) : Outcome :=
  match prepare e options with
  | .error failure => e.finish "" (some failure)
  | .ok job => perform e options job

end Graft.Command
