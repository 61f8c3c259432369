import Graft.Text.Quoted
import Graft.Toml.Value

/-! # Decoding values

A decoder reads a value of a certain type off a TOML value, or says why that is impossible.
A record is read field by field in the order of the document, so the first offence there is
the one reported.  An array may stand for a record: its items fill the fields in the order
in which they are declared, and further items are ignored.
-/
namespace Graft.Toml

/-- What a value is called in a message. -/
def Value.description : Value → String
  | string text => s!"string {Text.quoteText text}"
  | integer n => s!"integer \x60{n}\x60"
  | float x => s!"floating point \x60{x.text}\x60"
  | boolean b => s!"boolean \x60{b}\x60"
  | datetime _ => "map"
  | array _ => "sequence"
  | table _ => "map"

inductive DecodeError
  | unknownField (name : String) (known : List String)
  | missingField (name : String)
  | wrongType (found : Value) (expected : String)
  | notOneCharacter (text : String)
  | tooShort (length : Nat) (expected : String)

namespace DecodeError

/-- A text between grave accents. -/
def ticked (text : String) : String :=
  s!"\x60{text}\x60"

/-- The choice among the fields of a record. -/
def choice : List String → String
  | [] => "there are no fields"
  | [a] => s!"expected {ticked a}"
  | [a, b] => s!"expected {ticked a} or {ticked b}"
  | names => "expected one of " ++ ", ".intercalate (names.map ticked)

def message : DecodeError → String
  | unknownField name known => s!"unknown field {ticked name}, {choice known}"
  | missingField name => s!"missing field {ticked name}"
  | wrongType found expected => s!"invalid type: {found.description}, expected {expected}"
  | notOneCharacter text =>
    s!"invalid value: string {Text.quoteText text}, expected a character"
  | tooShort length expected => s!"invalid length {length}, expected {expected}"

end DecodeError

abbrev Decoder (α : Type) := Value → Except DecodeError α

namespace Decoder

def text : Decoder String
  | .string text => .ok text
  | v => .error (.wrongType v "a string")

def character : Decoder Char
  | .string text =>
    match text.toList with
    | [c] => .ok c
    | _ => .error (.notOneCharacter text)
  | v => .error (.wrongType v "a character")

/-- The one key of a time seen as a table. -/
def momentKey : String := "$__toml_private_datetime"

/-- The entries of a value that stands for a record with the given fields. -/
def entries (name : String) (fields : List String) : Decoder Entries
  | .table entries => .ok entries
  | .array items => .ok (fields.zip items)
  | .datetime text => .ok [(momentKey, .string text)]
  | v => .error (.wrongType v s!"struct {name}")

/-- Reads a record: `set` gives one of the fields its value, starting from `default`. -/
def record {α : Type} (name : String) (fields : List String) (default : α)
    (set : α → String → Value → Except DecodeError α) : Decoder α := fun v => do
  (← entries name fields v).foldlM (fun r (key, field) => set r key field) default

end Decoder
end Graft.Toml
