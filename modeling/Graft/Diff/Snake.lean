/-! # Middle snakes

A difference of two sequences is a path through the grid of their positions, and a snake is
a diagonal run along which they agree.  Two searches, one from each corner of the grid, go
as far as they can on every diagonal with ever more steps off it; where they meet lies a
snake in the middle of a shortest path.
-/
namespace Graft.Diff

/-- How far a search has come on each diagonal. -/
structure Frontier where
  reached : Array Nat
  middle : Nat

namespace Frontier

/-- The start of a search on diagonals up to `width` from the middle one. -/
def start (width : Nat) : Frontier :=
  ⟨.replicate (2 * width + 3) 0, width + 1⟩

def get (f : Frontier) (diagonal : Int) : Nat :=
  f.reached.getD (diagonal + f.middle).toNat 0

def set (f : Frontier) (diagonal : Int) (x : Nat) : Frontier :=
  { f with reached := f.reached.setIfInBounds (diagonal + f.middle).toNat x }

/-- Where the `d`-th round of a search enters a diagonal. -/
def entry (f : Frontier) (d diagonal : Int) : Nat :=
  if diagonal = -d ∨ (diagonal ≠ d ∧ f.get (diagonal - 1) < f.get (diagonal + 1)) then
    f.get (diagonal + 1)
  else f.get (diagonal - 1) + 1

end Frontier

/-- The number of equal elements from two positions on. -/
def runForward (old new : Array String) (x y : Nat) : Nat :=
  if hx : x < old.size then
    if hy : y < new.size then
      if old[x] = new[y] then runForward old new (x + 1) (y + 1) + 1 else 0
    else 0
  else 0
  termination_by old.size - x

/-- The diagonals of the `d`-th round, from `d` downwards in steps of two. -/
def diagonals (d : Nat) : List Int :=
  (List.range (d + 1)).map fun (i : Nat) => (d : Int) - 2 * i

/-- One round of a search: each diagonal is entered and followed as far as the sequences
agree.  `meets` tells from the diagonal, the entry and the end whether the other search has
been met, and where. -/
def round (old new : Array String) (d : Nat)
    (meets : Int → Nat × Int → Nat × Int → Option (Nat × Nat)) :
    List Int → Frontier → Except (Nat × Nat) Frontier
  | [], f => .ok f
  | k :: rest, f =>
    let x := f.entry d k
    let y : Int := x - k
    let run := if 0 ≤ y then runForward old new x y.toNat else 0
    match meets k (x, y) (x + run, y + run) with
    | some point => .error point
    | none => round old new d meets rest (f.set k (x + run))

/-- The rounds of both searches in turn, from the `d`-th on. -/
def search (old new : Array String) : (fuel d : Nat) → Frontier → Frontier → Option (Nat × Nat)
  | 0, _, _, _ => none
  | fuel + 1, d, ahead, back =>
    let n := old.size
    let m := new.size
    let delta : Int := (n : Int) - m
    let odd := delta % 2 ≠ 0
    let meetsBack := fun (k : Int) (entry last : Nat × Int) =>
      if odd ∧ (k - delta).natAbs < d ∧ n ≤ last.1 + back.get (delta - k) then
        some (entry.1, entry.2.toNat)
      else none
    match round old new d meetsBack (diagonals d) ahead with
    | .error point => some point
    | .ok ahead =>
      let meetsAhead := fun (k : Int) (_ last : Nat × Int) =>
        if ¬odd ∧ (k - delta).natAbs ≤ d ∧ n ≤ last.1 + ahead.get (delta - k) then
          some (n - last.1, (m - last.2).toNat)
        else none
      match round old.reverse new.reverse d meetsAhead (diagonals d) back with
      | .error point => some point
      | .ok back => search old new fuel (d + 1) ahead back

/-- A point of a snake in the middle of a shortest path. -/
def middleSnake? (old new : List String) : Option (Nat × Nat) :=
  let rounds := (old.length + new.length + 1) / 2 + 1
  search old.toArray new.toArray rounds 0 (.start rounds) (.start rounds)

end Graft.Diff
