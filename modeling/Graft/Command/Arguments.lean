import Graft.Dependency

/-! # Command lines

The commands and their options.  Arguments are read from left to right, and the first
mistake or request for help ends the reading.
-/
namespace Graft.Command

structure InjectOptions where
  project : Option String
  config : Option String
  resolved : List Dependency
  dryRun : Bool
  diff : Bool

structure StatusOptions where
  project : Option String
  config : Option String

inductive Request
  | inject (options : InjectOptions)
  | status (options : StatusOptions)
  | strip (file : String) (config : Option String)
  | locate (file needle : String) (config : Option String)

/-- Why the reading of a command line ended before a command was complete. -/
inductive Stop
  | usage
  | help
  | version
deriving DecidableEq, Repr

inductive OptionName
  | project
  | config
  | resolved
  | dryRun
  | diff
  | verbose
  | help
  | version
deriving DecidableEq, Repr

namespace OptionName

def long : OptionName → String
  | project => "project"
  | config => "config"
  | resolved => "resolved"
  | dryRun => "dry-run"
  | diff => "diff"
  | verbose => "verbose"
  | help => "help"
  | version => "version"

def short? : OptionName → Option Char
  | project => some 'p'
  | config => some 'c'
  | resolved => none
  | dryRun => some 'n'
  | diff => some 'd'
  | verbose => some 'v'
  | help => some 'h'
  | version => some 'V'

def takesValue : OptionName → Bool
  | project | config | resolved => true
  | _ => false

/-- Whether the option may be given more than once. -/
def isRepeatable : OptionName → Bool
  | resolved | verbose => true
  | _ => false

end OptionName

/-- What a command accepts. -/
structure Grammar where
  options : List OptionName
  operands : Nat

/-- What has been given so far, in the order of the command line. -/
structure Given where
  values : List (OptionName × String) := []
  flags : List OptionName := []
  operands : List String := []

namespace Given

def has (g : Given) (name : OptionName) : Bool :=
  g.flags.contains name || g.values.any (·.1 = name)

def value? (g : Given) (name : OptionName) : Option String :=
  g.values.lookup name

def addFlag (g : Given) (name : OptionName) : Except Stop Given :=
  match name with
  | .help => .error .help
  | .version => .error .version
  | _ =>
    if g.has name && !name.isRepeatable then .error .usage
    else .ok { g with flags := g.flags ++ [name] }

/-- Whether a text may be an option's value: a path is not empty, and a dependency is
written in its notation. -/
def accepts (name : OptionName) (value : String) : Bool :=
  match name with
  | .resolved => (Dependency.parse value).toOption.isSome
  | _ => !value.isEmpty

def addValue (g : Given) (name : OptionName) (value : String) : Except Stop Given :=
  if g.has name && !name.isRepeatable || !accepts name value then .error .usage
  else .ok { g with values := g.values ++ [(name, value)] }

/-- The first operand is a path. -/
def addOperand (grammar : Grammar) (g : Given) (operand : String) : Except Stop Given :=
  if grammar.operands ≤ g.operands.length || (g.operands.isEmpty && operand.isEmpty) then
    .error .usage
  else .ok { g with operands := g.operands ++ [operand] }

end Given

/-- Whether an argument is an option or a cluster of them. -/
def isOption (argument : String) : Bool :=
  match argument.toList with
  | '-' :: _ :: _ => true
  | _ => false

/-- What the options of one argument make of it: they are complete, or the last of them
still needs its value. -/
inductive Pending
  | complete (given : Given)
  | needsValue (name : OptionName) (given : Given)

/-- Reads a cluster of one-letter options.  What follows an option that takes a value is its
value. -/
def readCluster (grammar : Grammar) (g : Given) : List Char → Except Stop Pending
  | [] => .ok (.complete g)
  | letter :: rest =>
    match grammar.options.find? (·.short? = some letter) with
    | none => .error .usage
    | some name =>
      if name.takesValue then
        match rest with
        | [] => .ok (.needsValue name g)
        | '=' :: value => (g.addValue name (.ofList value)).map .complete
        | value => (g.addValue name (.ofList value)).map .complete
      else do readCluster grammar (← g.addFlag name) rest

/-- Reads an option by its long name, which an equals sign may join to its value. -/
def readLong (grammar : Grammar) (g : Given) (text : List Char) : Except Stop Pending :=
  let name := String.ofList (text.takeWhile (· ≠ '='))
  match grammar.options.find? (·.long = name), text.dropWhile (· ≠ '=') with
  | none, _ => .error .usage
  | some name, [] =>
    if name.takesValue then .ok (.needsValue name g) else (g.addFlag name).map .complete
  | some name, _ :: value =>
    if name.takesValue then (g.addValue name (.ofList value)).map .complete
    else .error .usage

def readOption (grammar : Grammar) (g : Given) (argument : String) : Except Stop Pending :=
  match argument.toList with
  | '-' :: '-' :: name => readLong grammar g name
  | '-' :: cluster => readCluster grammar g cluster
  | _ => .error .usage

/-- Reads the arguments of a command; behind `--` all of them are operands. -/
def readGiven (grammar : Grammar) (g : Given) : List String → Except Stop Given
  | [] => .ok g
  | argument :: rest =>
    if argument = "--" then rest.foldlM (Given.addOperand grammar) g
    else if isOption argument then
      match readOption grammar g argument with
      | .error stop => .error stop
      | .ok (.complete g) => readGiven grammar g rest
      | .ok (.needsValue name g) =>
        match rest with
        | [] => .error .usage
        | value :: rest =>
          if isOption value then .error .usage
          else
            match g.addValue name value with
            | .error stop => .error stop
            | .ok g => readGiven grammar g rest
    else
      match g.addOperand grammar argument with
      | .error stop => .error stop
      | .ok g => readGiven grammar g rest

inductive CommandName
  | inject
  | status
  | strip
  | locate
deriving DecidableEq, Repr

namespace CommandName

def text : CommandName → String
  | inject => "inject"
  | status => "status"
  | strip => "strip"
  | locate => "locate"

def ofText? (s : String) : Option CommandName :=
  [inject, status, strip, locate].find? (·.text = s)

def grammar : CommandName → Grammar
  | inject => ⟨[.project, .config, .resolved, .dryRun, .diff, .verbose, .help], 0⟩
  | status => ⟨[.project, .config, .verbose, .help], 0⟩
  | strip => ⟨[.config, .verbose, .help], 1⟩
  | locate => ⟨[.config, .verbose, .help], 2⟩

end CommandName

/-- The project that is asked for, by option or else by the environment. -/
def projectOf (fallback? : Option String) (g : Given) : Except Stop (Option String) :=
  match g.value? .project, fallback? with
  | some path, _ => .ok (some path)
  | none, some path => if path.isEmpty then .error .usage else .ok (some path)
  | none, none => .ok none

def resolvedOf (g : Given) : List Dependency :=
  g.values.filterMap fun (name, value) =>
    if name = .resolved then (Dependency.parse value).toOption else none

/-- The command that the given arguments make up. -/
def build (fallback? : Option String) (name : CommandName) (g : Given) :
    Except Stop Request := do
  let config := g.value? .config
  match name, g.operands with
  | .inject, _ =>
    let project ← projectOf fallback? g
    return .inject ⟨project, config, resolvedOf g, g.has .dryRun, g.has .diff⟩
  | .status, _ => return .status ⟨← projectOf fallback? g, config⟩
  | .strip, [file] => return .strip file config
  | .locate, [file, needle] => return .locate file needle config
  | _, _ => throw .usage

/-- The options that may stand before the name of a command. -/
def globalGrammar : Grammar :=
  ⟨[.verbose, .help, .version], 0⟩

/-- What a request for help ends with: help is there for each command and for itself. -/
def helpFor : List String → Stop
  | [] => .help
  | [topic] =>
    if topic = "help" || (CommandName.ofText? topic).isSome then .help else .usage
  | _ => .usage

/-- Reads a command line.  The fallback is the project that the environment names. -/
def parse (fallback? : Option String) : List String → Except Stop Request
  | [] => .error .usage
  | argument :: rest =>
    if isOption argument && argument ≠ "--" then
      match readOption globalGrammar {} argument with
      | .error stop => .error stop
      | .ok _ => parse fallback? rest
    else if argument = "help" then .error (helpFor rest)
    else
      match CommandName.ofText? argument with
      | none => .error .usage
      | some name => do
        build fallback? name (← readGiven name.grammar {} rest)

end Graft.Command
