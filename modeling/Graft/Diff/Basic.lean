/-! # Line differences

A difference of two texts is a list of steps, each of which keeps, deletes or inserts some
lines.  The lines that are kept or deleted make up the old text (`Step.olds`), those kept or
inserted the new one (`Step.news`).
-/
namespace Graft.Diff

inductive Step
  | keep (lines : List String)
  | delete (lines : List String)
  | insert (lines : List String)
deriving DecidableEq, Repr

namespace Step

def lines : Step → List String
  | keep lines | delete lines | insert lines => lines

/-- What a step takes from the old text. -/
def olds : Step → List String
  | keep lines | delete lines => lines
  | insert _ => []

/-- What a step contributes to the new text. -/
def news : Step → List String
  | keep lines | insert lines => lines
  | delete _ => []

end Step

/-- Cuts a text behind each line end: a carriage return and a newline, or one of them.  The
characters of the current line come in reverse. -/
def cutLines (current : List Char) : List Char → List (List Char)
  | [] => if current.isEmpty then [] else [current.reverse]
  | '\r' :: '\n' :: rest => ('\n' :: '\r' :: current).reverse :: cutLines [] rest
  | c :: rest =>
    if c = '\r' || c = '\n' then (c :: current).reverse :: cutLines [] rest
    else cutLines (c :: current) rest

/-- The lines of a text with their ends. -/
def linesOf (text : String) : List String :=
  (cutLines [] text.toList).map String.ofList

theorem flatten_cutLines (current text : List Char) :
    (cutLines current text).flatten = current.reverse ++ text := by
  fun_induction cutLines current text <;> simp_all

end Graft.Diff
