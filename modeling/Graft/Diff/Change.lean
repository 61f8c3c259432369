import Graft.Diff.Compaction
import Graft.Diff.Shortest

/-! # Changes of a text

The difference of two texts as a list of lines, each kept, deleted or inserted.  Between
kept lines the deleted ones come before the inserted ones.
-/
namespace Graft.Diff

inductive Sign
  | kept
  | deleted
  | inserted
deriving DecidableEq, Repr

structure Change where
  sign : Sign
  line : String
deriving DecidableEq, Repr

/-- The changes of a list of steps, behind lines deleted and inserted since the last kept
one. -/
def changesFrom (olds news : List String) : List Step → List Change
  | [] => olds.map (⟨.deleted, ·⟩) ++ news.map (⟨.inserted, ·⟩)
  | .delete lines :: rest => changesFrom (olds ++ lines) news rest
  | .insert lines :: rest => changesFrom olds (news ++ lines) rest
  | .keep lines :: rest =>
    olds.map (⟨.deleted, ·⟩) ++ news.map (⟨.inserted, ·⟩) ++ lines.map (⟨.kept, ·⟩) ++
      changesFrom [] [] rest

/-- The changes that lead from the old text to the new one. -/
def changes (old new : String) : List Change :=
  changesFrom [] [] (compact (solve (linesOf old) (linesOf new)))

end Graft.Diff
