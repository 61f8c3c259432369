import Graft.Toml.Scalar
import Graft.Toml.Table
import Graft.Toml.Text

/-! # TOML documents

The grammar of version 1.1: entries and table headers, one to a line.  A text is a document
only if it fits the grammar and defines nothing twice.
-/
namespace Graft.Toml

namespace Reader

def scalar : Reader Value := fun text =>
  let (run, rest) := Scalar.cut text
  (Scalar.value? run).map fun v => (v, rest)

/-- An equals sign with the spaces around it. -/
def equals : Reader Unit := do
  spaces
  token "="
  spaces

mutual

/-- A value.  The first argument bounds the depth of nesting and the number of items. -/
def value : Nat → Reader Value
  | 0 => failure
  | fuel + 1 => do
    if let some text ← string? then return .string text
    if ← optional "[" then return .array (← items fuel)
    if ← optional "\x7b" then return .table (Nodes.toEntries (← fields fuel []))
    scalar

/-- The items of an array up to its end. -/
def items : Nat → Reader (List Value)
  | 0 => failure
  | fuel + 1 => do
    gap
    if ← optional "]" then return []
    let item ← value fuel
    gap
    if ← optional "," then return item :: (← items fuel)
    token "]"
    return [item]

/-- The entries of an inline table up to its end, behind those read before. -/
def fields : Nat → Nodes → Reader Nodes
  | 0, _ => failure
  | fuel + 1, before => do
    gap
    if ← optional "\x7d" then return before
    let path ← key
    equals
    let v ← value fuel
    let nodes ← Nodes.assignDotted v path before
    gap
    if ← optional "," then fields fuel nodes
    else
      token "\x7d"
      return nodes

end

end Reader

inductive Statement
  | entry (path : List String) (v : Value)
  | header (path : List String)
  | item (path : List String)

namespace Reader

/-- A key between the brackets of a header. -/
def headerKey (close : String) : Reader (List String) := do
  spaces
  let path ← key
  spaces
  token close
  return path

/-- What a line defines, if anything. -/
def statement? : Reader (Option Statement) := do
  spaces
  match ← peek? with
  | none => return none
  | some c =>
    if c = '#' || c = '\n' || c = '\r' then return none
    if ← optional "[[" then return some (.item (← headerKey "]]"))
    if ← optional "[" then return some (.header (← headerKey "]"))
    let path ← key
    equals
    let text ← get
    return some (.entry path (← value (2 * text.length + 2)))

/-- A line through its end. -/
def line? : Reader (Option (Option Statement)) := do
  if ← atEnd then return none
  let found ← statement?
  trailing
  if (← newline?).isSome || (← atEnd) then return some found else failure

def statements : Reader (List Statement) := do
  return (← collect line?).filterMap id

end Reader

/-- The tables defined so far, and the path of the one that entries go to. -/
structure Progress where
  current : List String
  nodes : Nodes

namespace Progress

/-- Carries out an opening operation in the table that holds the last part of a path. -/
def opening (openAt : String → Nodes → Option Nodes) (path : List String) (p : Progress) :
    Option Progress := do
  let last ← path.getLast?
  let nodes ← Nodes.within path.dropLast (openAt last) p.nodes
  return ⟨path, nodes⟩

def define (p : Progress) : Statement → Option Progress
  | .entry path v =>
    (Nodes.within p.current (Nodes.assignDotted v path) p.nodes).map fun nodes =>
      { p with nodes }
  | .header path => p.opening Nodes.openTable path
  | .item path => p.opening Nodes.openItem path

end Progress

/-- A byte order mark in front of a document is not part of it. -/
def withoutMark : List Char → List Char
  | '\ufeff' :: rest => rest
  | text => text

/-- The entries of a document, or nothing when the text is none. -/
def parse? (text : String) : Option Entries := do
  let (statements, _) ← Reader.statements (withoutMark text.toList)
  let final ← statements.foldlM Progress.define ⟨[], []⟩
  return Nodes.toEntries final.nodes

end Graft.Toml
