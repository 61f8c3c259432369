import Graft.Config.Decode
import Graft.Config.Validation
import Graft.File.Error
import Graft.Toml.Document

/-! # Where a configuration comes from

A configuration is written in TOML.  Reading it fails for a cause, and the report of a
failure names the origin of the text.
-/
namespace Graft.Config

inductive Origin
  | inline
  | explicit (path : String)
  | project (path : String)
deriving DecidableEq, Repr

namespace Origin

def path? : Origin → Option String
  | inline => none
  | explicit path | project path => some path

def description : Origin → String
  | inline => "inline injector config"
  | explicit path => s!"injector config {path}"
  | project path => s!"project config {path}"

end Origin

inductive Cause
  | unreadable (e : File.Error)
  | malformed
  | misfit (e : Toml.DecodeError)
  | rejected (issues : List Issue)

def Cause.message : Cause → String
  | unreadable e => e.message
  | malformed => "TOML parse error"
  | misfit e => e.message
  | rejected issues => issuesMessage issues

structure LoadError where
  origin : Origin
  cause : Cause

def LoadError.message (e : LoadError) : String :=
  match e.cause with
  | .unreadable _ => s!"cannot read {e.origin.description}: {e.cause.message}"
  | .malformed | .misfit _ =>
    s!"{e.origin.description} is not valid injector TOML: {e.cause.message}"
  | .rejected _ => s!"{e.origin.description} rejected: {e.cause.message}"

/-- Reads the entries of a document as a configuration without issues. -/
def ofEntries (entries : Toml.Entries) : Except Cause Config := do
  let c ← (decode (.table entries)).mapError .misfit
  c.validate.mapError .rejected
  return c

def ofText (text : String) : Except Cause Config :=
  match Toml.parse? text with
  | none => .error .malformed
  | some entries => ofEntries entries

/-- Reads a text of the given origin. -/
def load (origin : Origin) (text : String) : Except LoadError Config :=
  (ofText text).mapError fun cause => ⟨origin, cause⟩

end Graft.Config
