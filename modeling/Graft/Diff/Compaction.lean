import Graft.Diff.Basic

/-! # Compaction

Inserted lines may often be placed elsewhere without changing the meaning of a difference:
an insertion that ends like the kept lines before it may move up over them.  Compaction
moves every step up as far as it goes and then down as far as it goes, joins steps of the
same kind that meet, and lets deletions and insertions pass each other.
-/
namespace Graft.Diff

/-- A position in a list of steps: those before it, the nearest first, the step in focus
and those after it. -/
structure Focus where
  before : List Step
  step : Step
  after : List Step

/-- The number of steps and of their lines. -/
def weight : List Step → Nat
  | [] => 0
  | s :: steps => s.lines.length + 1 + weight steps

@[simp] theorem weight_cons (s : Step) (steps : List Step) :
    weight (s :: steps) = s.lines.length + 1 + weight steps := rfl

/-- Puts a kept line in front of the steps after a position. -/
def growAfter (line : String) : List Step → List Step
  | .keep lines :: rest => .keep (line :: lines) :: rest
  | steps => .keep [line] :: steps

/-- Puts a kept line behind the steps before a position. -/
def growBefore (line : String) : List Step → List Step
  | .keep lines :: rest => .keep (lines ++ [line]) :: rest
  | steps => .keep [line] :: steps

/-- Moves the step in focus up.  Over kept lines an insertion moves line by line, as long as
its last line is the one it passes. -/
def moveUp (before : List Step) (step : Step) (after : List Step) : Focus :=
  match before, step with
  | [], step => ⟨[], step, after⟩
  | .keep lines :: rest, .insert news =>
    match _h : lines.getLast?, news.getLast? with
    | none, _ => moveUp rest (.insert news) after
    | some a, some b =>
      if a = b then
        moveUp (.keep lines.dropLast :: rest) (.insert (a :: news.dropLast)) (growAfter a after)
      else ⟨before, step, after⟩
    | some _, none => ⟨before, step, after⟩
  | .keep [] :: rest, step => moveUp rest step after
  | .keep (_ :: _) :: _, step => ⟨before, step, after⟩
  | .insert above :: rest, .insert news => moveUp rest (.insert (above ++ news)) after
  | .delete above :: rest, .delete olds => moveUp rest (.delete (above ++ olds)) after
  | above :: rest, step => moveUp rest step (above :: after)
  termination_by weight before
  decreasing_by
    all_goals simp [Step.lines]
    have : lines ≠ [] := by rintro rfl; simp at _h
    have := List.length_pos_iff.mpr this
    omega

/-- Moves the step in focus down. -/
def moveDown (before : List Step) (step : Step) (after : List Step) : Focus :=
  match after, step with
  | [], step => ⟨before, step, []⟩
  | .keep [] :: rest, step => moveDown before step rest
  | .keep (a :: lines) :: rest, .insert (b :: news) =>
    if a = b then
      moveDown (growBefore a before) (.insert (news ++ [a])) (.keep lines :: rest)
    else ⟨before, step, after⟩
  | .keep (_ :: _) :: _, step => ⟨before, step, after⟩
  | .insert below :: rest, .insert news => moveDown before (.insert (news ++ below)) rest
  | .delete below :: rest, .delete olds => moveDown before (.delete (olds ++ below)) rest
  | below :: rest, step => moveDown (below :: before) step rest
  termination_by weight after
  decreasing_by all_goals simp [Step.lines]

/-- Moves every step that `chosen` picks up and then down, from the first step on.  The fuel
bounds the number of steps visited. -/
def settle (chosen : Step → Bool) : (fuel : Nat) → (before after : List Step) → List Step
  | 0, before, after => before.reverse ++ after
  | _ + 1, before, [] => before.reverse
  | fuel + 1, before, step :: after =>
    if chosen step then
      let up := moveUp before step after
      let down := moveDown up.before up.step up.after
      settle chosen fuel (down.step :: down.before) down.after
    else settle chosen fuel (step :: before) after

def Step.isDelete : Step → Bool
  | .delete _ => true
  | _ => false

def Step.isInsert : Step → Bool
  | .insert _ => true
  | _ => false

def compact (steps : List Step) : List Step :=
  let settled := settle Step.isDelete (weight steps + 1) [] steps
  settle Step.isInsert (weight settled + 1) [] settled

end Graft.Diff
