/-! # Numbers of the binary64 format

A decimal numeral is rounded to the nearest number with a 53-bit significand and an exponent
in the format's range, a tie going to the even significand.  Such a number is written with
the fewest digits that round back to it, always in positional notation.  All arithmetic is
on natural numbers.
-/
namespace Graft.Decimal

/-- A finite number is `± significand · 2 ^ exponent`. -/
inductive Binary64
  | nan
  | infinite (negative : Bool)
  | finite (negative : Bool) (significand : Nat) (exponent : Int)
deriving DecidableEq, Repr

namespace Binary64

def minExponent : Int := -1074
def maxExponent : Int := 971

/-- The value `base ^ exponent · scale` as a fraction. -/
def scaled (scale base : Nat) (exponent : Int) : Nat × Nat :=
  if exponent < 0 then (scale, base.pow exponent.natAbs)
  else (scale * base.pow exponent.natAbs, 1)

/-- The quotient rounded to the nearest natural number, a tie to the even one. -/
def divNearest (num den : Nat) : Nat :=
  let quotient := num / den
  let twice := 2 * (num % den)
  if twice < den ∨ twice = den ∧ quotient % 2 = 0 then quotient else quotient + 1

/-- Rounds the positive fraction `num / den`; nothing when it is beyond the format. -/
def roundFraction (negative : Bool) (num den : Nat) : Option Binary64 :=
  let guess : Int := (Nat.log2 num : Int) - Nat.log2 den - 52
  let inUnits := fun (exponent : Int) =>
    let (n, d) := scaled num 2 (-exponent)
    (n, d * den)
  let (n, d) := inUnits guess
  let exponent := max minExponent (if n < Nat.pow 2 52 * d then guess - 1 else guess)
  let (n, d) := inUnits exponent
  let significand := divNearest n d
  let (significand, exponent) :=
    if significand = Nat.pow 2 53 then (Nat.pow 2 52, exponent + 1) else (significand, exponent)
  if exponent > maxExponent then none else some (.finite negative significand exponent)

/-- Rounds `digits · 10 ^ exponent`; nothing when it is beyond the format.  Values far
outside the format are told apart by their number of digits. -/
def ofDecimal (negative : Bool) (digits : Nat) (exponent : Int) : Option Binary64 :=
  let magnitude : Int := (Nat.toDigits 10 digits).length + exponent
  if digits = 0 ∨ magnitude < -330 then some (.finite negative 0 minExponent)
  else if magnitude > 310 then none
  else
    let (num, den) := scaled digits 10 exponent
    roundFraction negative num den

/-- The interval of values that round to a number, in quarters of its unit, and whether its
ends belong to it. -/
def roundingInterval (significand : Nat) (exponent : Int) : Nat × Nat × Bool :=
  let below := if significand = Nat.pow 2 52 ∧ exponent > minExponent then 1 else 2
  (4 * significand - below, 4 * significand + 2, significand % 2 = 0)

/-- The multiple of `10 ^ grid` that lies in the rounding interval of a positive number and
is nearest to it. -/
def onGrid? (significand : Nat) (exponent : Int) (grid : Int) : Option Nat :=
  let (low, high, closed) := roundingInterval significand exponent
  let (unitNum, unitDen) := scaled 1 2 (exponent - 2)
  let (gridNum, gridDen) := scaled 1 10 grid
  let quarters := fun n => n * unitNum * gridDen
  let steps := fun k => k * gridNum * unitDen
  let inside := fun k =>
    if closed then quarters low ≤ steps k ∧ steps k ≤ quarters high
    else quarters low < steps k ∧ steps k < quarters high
  let floor := quarters (4 * significand) / steps 1
  let distanceDown := quarters (4 * significand) - steps floor
  let distanceUp := steps (floor + 1) - quarters (4 * significand)
  if inside floor ∧ 0 < floor then
    if inside (floor + 1) ∧ distanceUp < distanceDown then some (floor + 1) else some floor
  else if inside (floor + 1) then some (floor + 1)
  else none

/-- Looks for the coarsest decimal grid, from `10 ^ grid` downwards, that has a point in the
rounding interval. -/
def coarsest? (significand : Nat) (exponent : Int) : Nat → Int → Option (Nat × Int)
  | 0, _ => none
  | fuel + 1, grid =>
    match onGrid? significand exponent grid with
    | some k => some (k, grid)
    | none => coarsest? significand exponent fuel (grid - 1)

/-- The fewest digits that round back to a number, with the power of ten they count. -/
def shortest (significand : Nat) (exponent : Int) : Nat × Int :=
  if significand = 0 then (0, 0)
  else (coarsest? significand exponent 1400 309).getD (0, 0)

/-- The number `digits · 10 ^ exponent` in positional notation, with a point and at least one
digit on each side of it. -/
def positional (digits : Nat) (exponent : Int) : String :=
  let shown := Nat.toDigits 10 digits
  if exponent < 0 then
    let places := exponent.natAbs
    let padded := List.replicate (places + 1 - shown.length) '0' ++ shown
    let whole := padded.length - places
    .ofList (padded.take whole ++ '.' :: padded.drop whole)
  else .ofList (shown ++ List.replicate exponent.natAbs '0' ++ ['.', '0'])

def text : Binary64 → String
  | nan => "NaN"
  | infinite negative => if negative then "-inf" else "inf"
  | finite negative significand exponent =>
    let (digits, power) := shortest significand exponent
    (if negative then "-" else "") ++ positional digits power

end Binary64
end Graft.Decimal
