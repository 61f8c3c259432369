import Graft.File.Path
import Graft.Named

/-! # File trees

A node is a regular file, a symbolic link or a directory of named nodes.  `at?` looks a
location up without following links; `put` and `remove` change one location.
-/
namespace Graft.File
open Named

inductive Node
  | file (content : ByteArray)
  | link (target : String)
  | dir (entries : List (String × Node))

namespace Node

def empty : Node := .dir []

def isFile : Node → Bool
  | file _ => true
  | _ => false

def isDir : Node → Bool
  | dir _ => true
  | _ => false

/-- The named nodes of a directory; other nodes have none. -/
def entries : Node → List (String × Node)
  | dir entries => entries
  | _ => []

def at? (root : Node) : Location → Option Node
  | [] => some root
  | name :: rest =>
    match root with
    | dir entries => (get? name entries).bind (at? · rest)
    | _ => none

/-- Puts a node at a location.  What is missing on the way becomes a directory. -/
def put (root : Node) (location : Location) (node : Node) : Node :=
  match location with
  | [] => node
  | name :: rest =>
    dir (Named.put name (put ((get? name root.entries).getD empty) rest node) root.entries)

/-- Takes away the node at a location. -/
def remove (root : Node) : Location → Node
  | [] => empty
  | name :: rest =>
    match root with
    | dir entries =>
      match rest, get? name entries with
      | [], _ => dir (erase name entries)
      | _ :: _, some child => dir (Named.put name (remove child rest) entries)
      | _ :: _, none => root
    | _ => root

@[simp] theorem at?_nil (root : Node) : root.at? [] = some root := by
  simp [at?]

theorem at?_cons (root : Node) (name : String) (rest : Location) :
    root.at? (name :: rest) = (get? name root.entries).bind (at? · rest) := by
  cases root <;> simp [at?, entries, get?]

theorem at?_append (root : Node) (a b : Location) :
    root.at? (a ++ b) = (root.at? a).bind (at? · b) := by
  induction a generalizing root with
  | nil => simp
  | cons name a ih =>
    simp only [List.cons_append, at?_cons]
    cases get? name root.entries <;> simp [ih]

theorem at?_put_self (root : Node) (location : Location) (node : Node) :
    (root.put location node).at? location = some node := by
  induction location generalizing root with
  | nil => simp [put]
  | cons name rest ih => simp [put, at?_cons, entries, get?_put, ih]

mutual

/-- Every node below a node, with its location. -/
def listing (here : Location) : Node → List (Location × Node)
  | file _ => []
  | link _ => []
  | dir entries => listingOf here entries

def listingOf (here : Location) : List (String × Node) → List (Location × Node)
  | [] => []
  | (name, node) :: rest =>
    (here ++ [name], node) :: (listing (here ++ [name]) node ++ listingOf here rest)

end

end Node
end Graft.File
