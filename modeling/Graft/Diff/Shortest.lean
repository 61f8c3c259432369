import Graft.Diff.Basic
import Graft.Diff.Snake

/-! # Shortest differences

What two sequences have in common at their ends is kept; what remains is split at a middle
snake and each half is solved by itself.
-/
namespace Graft.Diff

/-- The number of equal elements at the front of two sequences. -/
def commonFront : List String → List String → Nat
  | a :: as, b :: bs => if a = b then commonFront as bs + 1 else 0
  | _, _ => 0

/-- A step, unless it would concern no lines. -/
def stepOf (step : List String → Step) (lines : List String) : List Step :=
  if lines.isEmpty then [] else [step lines]

/-- The steps from the old lines to the new ones. -/
def solve (old new : List String) : List Step :=
  let front := commonFront old new
  let olds := old.drop front
  let news := new.drop front
  let back := commonFront olds.reverse news.reverse
  let olds := olds.take (olds.length - back)
  let news := news.take (news.length - back)
  let middle :=
    if olds.isEmpty || news.isEmpty then stepOf .delete olds ++ stepOf .insert news
    else
      match middleSnake? olds news with
      | none => [.delete olds, .insert news]
      | some (x, y) =>
        if _h : (olds.take x).length + (news.take y).length < old.length + new.length ∧
            (olds.drop x).length + (news.drop y).length < old.length + new.length then
          solve (olds.take x) (news.take y) ++ solve (olds.drop x) (news.drop y)
        else [.delete olds, .insert news]
  stepOf .keep (old.take front) ++ middle ++ stepOf .keep (old.drop (old.length - back))
  termination_by old.length + new.length
  decreasing_by
    · exact _h.1
    · exact _h.2

end Graft.Diff
