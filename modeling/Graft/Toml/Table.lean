import Graft.Named
import Graft.Toml.Value

/-! # Tables under construction

A document defines its tables bit by bit: by a header, by a header of a table inside them,
or by the dots of a key.  A table may be defined only once, so each remembers how it came
about.  Every operation fails when the document would define something twice.
-/
namespace Graft.Toml

inductive Origin
  | header
  | implied
  | dotted
deriving DecidableEq, Repr

inductive Node
  | value (v : Value)
  | table (origin : Origin) (entries : List (String × Node))
  | tables (items : List (List (String × Node)))

abbrev Nodes := List (String × Node)

namespace Nodes
open Named

/-- Changes the table that a header path leads to, the last one where the path meets an
array of tables.  Tables that the path names first are created. -/
def within (path : List String) (change : Nodes → Option Nodes) (nodes : Nodes) :
    Option Nodes :=
  match path with
  | [] => change nodes
  | key :: rest =>
    match get? key nodes with
    | none => (within rest change []).map fun inner => put key (.table .implied inner) nodes
    | some (.value _) => none
    | some (.table origin inner) =>
      (within rest change inner).map fun inner => put key (.table origin inner) nodes
    | some (.tables items) => do
      let last ← items.getLast?
      let inner ← within rest change last
      return put key (.tables (items.dropLast ++ [inner])) nodes

/-- Opens the table of a header.  A table that only headers below it have implied so far
keeps its entries and moves to the end. -/
def openTable (key : String) (nodes : Nodes) : Option Nodes :=
  match get? key nodes with
  | none => some (put key (.table .header []) nodes)
  | some (.table .implied inner) => some (put key (.table .header inner) (erase key nodes))
  | some _ => none

/-- Opens the next table of an array of tables. -/
def openItem (key : String) (nodes : Nodes) : Option Nodes :=
  match get? key nodes with
  | none => some (put key (.tables [[]]) nodes)
  | some (.tables items) => some (put key (.tables (items ++ [[]])) nodes)
  | some _ => none

/-- Gives a new key its value. -/
def assign (key : String) (v : Value) (nodes : Nodes) : Option Nodes :=
  match get? key nodes with
  | none => some (put key (.value v) nodes)
  | some _ => none

/-- Gives a dotted key its value: the tables on the way to its last part come about by
dots. -/
def assignDotted (v : Value) : List String → Nodes → Option Nodes
  | [], _ => none
  | [key], nodes => assign key v nodes
  | key :: rest, nodes =>
    match get? key nodes with
    | none => (assignDotted v rest []).map fun inner => put key (.table .dotted inner) nodes
    | some (.table origin inner) =>
      if origin = .dotted ∨ origin = .implied ∧ 1 < rest.length then
        (assignDotted v rest inner).map fun inner => put key (.table origin inner) nodes
      else none
    | some _ => none

end Nodes

mutual

/-- The value that a finished node stands for. -/
def Node.toValue : Node → Value
  | .value v => v
  | .table _ entries => .table (Nodes.toEntries entries)
  | .tables items => .array (Nodes.toTables items)

def Nodes.toEntries : List (String × Node) → Entries
  | [] => []
  | (key, node) :: rest => (key, node.toValue) :: Nodes.toEntries rest

def Nodes.toTables : List (List (String × Node)) → List Value
  | [] => []
  | nodes :: rest => .table (Nodes.toEntries nodes) :: Nodes.toTables rest

end

end Graft.Toml
