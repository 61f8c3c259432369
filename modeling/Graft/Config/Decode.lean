import Graft.Config.Basic
import Graft.Toml.Decode

/-! # Reading a configuration from a TOML value

Each table of a configuration is a record.  A field that is absent keeps the value that the
built-in configuration gives it; the statements of a dialect have no built-in value of their
own once their table is present, and a task must be complete.
-/
namespace Graft.Config
open Toml

namespace Target

def fields : List String := ["marker"]

def set (t : Target) (key : String) (v : Value) : Except DecodeError Target :=
  match key with
  | "marker" => return { t with marker := ← Decoder.text v }
  | _ => throw (.unknownField key fields)

def decode : Decoder Target :=
  .record "Target" fields {} set

end Target

namespace Plugin

def fields : List String := ["group", "name", "version"]

def set (p : Plugin) (key : String) (v : Value) : Except DecodeError Plugin :=
  match key with
  | "group" => return { p with group := ← Decoder.text v }
  | "name" => return { p with name := ← Decoder.text v }
  | "version" => return { p with version := ← Decoder.text v }
  | _ => throw (.unknownField key fields)

def decode : Decoder Plugin :=
  .record "Plugin" fields {} set

end Plugin

namespace Statements

def fields : List String := ["apply", "task"]

def set (s : Statements) (key : String) (v : Value) : Except DecodeError Statements :=
  match key with
  | "apply" => return { s with apply := ← Decoder.text v }
  | "task" => return { s with task := ← Decoder.text v }
  | _ => throw (.unknownField key fields)

def decode : Decoder Statements :=
  .record "DialectTemplates" fields {} set

end Statements

namespace Templates

def fields : List String := ["dependency", "repository", "groovy", "kotlin"]

def set (t : Templates) (key : String) (v : Value) : Except DecodeError Templates :=
  match key with
  | "dependency" => return { t with dependency := ← Decoder.text v }
  | "repository" => return { t with repository := ← Decoder.text v }
  | "groovy" => return { t with groovy := ← Statements.decode v }
  | "kotlin" => return { t with kotlin := ← Statements.decode v }
  | _ => throw (.unknownField key fields)

def decode : Decoder Templates :=
  .record "Templates" fields {} set

end Templates

namespace Lexicon

def fields : List String :=
  ["line_comment", "block_open", "block_close", "string_quote", "char_quote"]

def set (l : Scan.Lexicon) (key : String) (v : Value) : Except DecodeError Scan.Lexicon :=
  match key with
  | "line_comment" => return { l with lineComment := ← Decoder.text v }
  | "block_open" => return { l with blockOpen := ← Decoder.text v }
  | "block_close" => return { l with blockClose := ← Decoder.text v }
  | "string_quote" => return { l with stringQuote := ← Decoder.character v }
  | "char_quote" => return { l with charQuote := ← Decoder.character v }
  | _ => throw (.unknownField key fields)

def decode : Decoder Scan.Lexicon :=
  .record "Lexicon" fields {} set

end Lexicon

namespace TaskEntry

def fields : List String := ["name", "class"]

/-- A task whose fields have not all been read. -/
structure Draft where
  name : Option String := none
  className : Option String := none

def set (d : Draft) (key : String) (v : Value) : Except DecodeError Draft :=
  match key with
  | "name" => return { d with name := some (← Decoder.text v) }
  | "class" => return { d with className := some (← Decoder.text v) }
  | _ => throw (.unknownField key fields)

/-- The error of a task that lacks a field: an array is too short for it. -/
def incomplete (v : Value) (field : String) : DecodeError :=
  match v with
  | .array items => .tooShort items.length "struct TaskRegistration with 2 elements"
  | _ => .missingField field

def decode : Decoder TaskEntry := fun v => do
  let draft ← Decoder.record "TaskRegistration" fields {} set v
  match draft.name, draft.className with
  | some name, some className => return ⟨name, className⟩
  | none, _ => throw (incomplete v "name")
  | _, none => throw (incomplete v "class")

end TaskEntry

namespace Append

def fields : List String := ["script", "task"]

def set (a : Append) (key : String) (v : Value) : Except DecodeError Append :=
  match key with
  | "script" => return { a with script := some (← Decoder.text v) }
  | "task" => return { a with task := some (← TaskEntry.decode v) }
  | _ => throw (.unknownField key fields)

def decode : Decoder Append :=
  .record "Append" fields {} set

end Append

def fields : List String := ["target", "plugin", "templates", "lexicon", "append"]

def set (c : Config) (key : String) (v : Value) : Except DecodeError Config :=
  match key with
  | "target" => return { c with target := ← Target.decode v }
  | "plugin" => return { c with plugin := ← Plugin.decode v }
  | "templates" => return { c with templates := ← Templates.decode v }
  | "lexicon" => return { c with lexicon := ← Lexicon.decode v }
  | "append" => return { c with append := ← Append.decode v }
  | _ => throw (.unknownField key fields)

def decode : Decoder Config :=
  .record "InjectorConfig" fields {} set

end Graft.Config
