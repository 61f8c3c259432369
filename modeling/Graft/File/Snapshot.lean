import Graft.File.Edit

/-! # Snapshots of file trees

A snapshot is a text with one line for each node: its kind, its path and, for a file, its
bytes in hexadecimal or, for a link, its target, with tabs between them.  Paths hold neither
tabs nor newlines.
-/
namespace Graft.File.Snapshot

def hexByte (b : UInt8) : List Char :=
  [Nat.digitChar (b.toNat / 16), Nat.digitChar (b.toNat % 16)]

def hexDigit? (c : Char) : Option Nat :=
  ("0123456789abcdef".toList.zipIdx.lookup c)

def encodeBytes (bytes : List UInt8) : List Char :=
  bytes.flatMap hexByte

def decodeBytes? : List Char → Option (List UInt8)
  | [] => some []
  | a :: b :: rest => do
    let high ← hexDigit? a
    let low ← hexDigit? b
    return (16 * high + low).toUInt8 :: (← decodeBytes? rest)
  | [_] => none

def renderNode (location : Location) : Node → String
  | .file content =>
    "file\t" ++ location.path ++ "\t" ++ .ofList (encodeBytes content.toList) ++ "\n"
  | .link target => "link\t" ++ location.path ++ "\t" ++ target ++ "\n"
  | .dir _ => "dir\t" ++ location.path ++ "\n"

/-- The snapshot of a tree. -/
def render (root : Node) : String :=
  String.join ((root.listing []).map fun (location, node) => renderNode location node)

/-- Adds the node of one line to a tree. -/
def addLine (root : Node) (line : List Char) : Option Node :=
  let v : View := ⟨root, []⟩
  match (line.splitOn '\t').map String.ofList with
  | ["dir", path] => (v.makeDir path).toOption
  | ["link", path, target] => (v.makeLink path target).toOption
  | ["file", path, bytes] => do
    let content ← decodeBytes? bytes.toList
    (v.writeFile path ⟨content.toArray⟩).toOption
  | _ => none

/-- The tree of a snapshot. -/
def parse? (text : String) : Option Node :=
  ((text.toList.splitOn '\n').filter fun line => !line.isEmpty).foldlM addLine .empty

end Graft.File.Snapshot
