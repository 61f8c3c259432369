/-! # Lines of a text

Two ways to cut a text.  `lines` cuts at every newline and keeps all pieces, so joining
them gives the text back.  `records` is for texts made of terminated lines: the piece behind
the last newline is dropped when it is empty, and a carriage return right before a newline
belongs to the terminator.
-/
namespace Graft.Text

/-- The pieces between the newlines of a text; there is always at least one. -/
def lines (text : List Char) : List (List Char) :=
  text.splitOn '\n'

/-- Drops one carriage return at the end of a piece. -/
def dropReturn (piece : List Char) : List Char :=
  if piece.getLast? = some '\r' then piece.dropLast else piece

/-- The pieces of `lines` seen as terminated lines. -/
def terminated : List (List Char) → List (List Char)
  | [] => []
  | [last] => if last.isEmpty then [] else [last]
  | piece :: rest => dropReturn piece :: terminated rest

/-- The lines of a text whose lines end in a newline, or in a carriage return and a
newline. -/
def records (text : String) : List String :=
  (terminated (lines text.toList)).map String.ofList

end Graft.Text
