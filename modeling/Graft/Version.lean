import Graft.Text.Quoted

/-! # Semantic versions

Three numbers joined by dots, then an optional pre-release part behind a hyphen and an
optional build part behind a plus sign.  A text that is no version has a cause, which names
the part that was being read.
-/
namespace Graft

structure Version where
  major : Nat
  minor : Nat
  patch : Nat
  preRelease : List String
  build : List String
deriving DecidableEq, Repr

namespace Version

inductive Part
  | major
  | minor
  | patch
  | preRelease
  | build
deriving DecidableEq, Repr

def Part.name : Part → String
  | major => "major version number"
  | minor => "minor version number"
  | patch => "patch version number"
  | preRelease => "pre-release identifier"
  | build => "build metadata"

inductive Error
  | empty
  | unexpectedEnd (part : Part)
  | unexpectedChar (part : Part) (found : Char)
  | unexpectedCharAfter (part : Part) (found : Char)
  | leadingZero (part : Part)
  | tooLarge (part : Part)
  | emptySegment (part : Part)
deriving DecidableEq, Repr

def Error.message : Error → String
  | empty => "empty string, expected a semver version"
  | unexpectedEnd part => s!"unexpected end of input while parsing {part.name}"
  | unexpectedChar part found =>
    s!"unexpected character {Text.quoteChar found} while parsing {part.name}"
  | unexpectedCharAfter part found =>
    s!"unexpected character {Text.quoteChar found} after {part.name}"
  | leadingZero part => s!"invalid leading zero in {part.name}"
  | tooLarge part => s!"value of {part.name} exceeds u64::MAX"
  | emptySegment part => s!"empty identifier segment in {part.name}"

/-- The largest number that a version holds, the last one of 64 bits. -/
def maxNumber : Nat := Nat.pow 2 64 - 1

/-- The value of a run of decimal digits. -/
def ofDigits (digits : List Char) : Nat :=
  digits.foldl (fun n d => 10 * n + (d.toNat - '0'.toNat)) 0

/-- Reads a number without a leading zero. -/
def takeNumber (part : Part) (text : List Char) : Except Error (Nat × List Char) :=
  let digits := text.takeWhile Char.isDigit
  let rest := text.dropWhile Char.isDigit
  if digits.isEmpty then
    match rest with
    | [] => .error (.unexpectedEnd part)
    | c :: _ => .error (.unexpectedChar part c)
  else if digits.length > 1 && digits.head? = some '0' then .error (.leadingZero part)
  else if ofDigits digits > maxNumber then .error (.tooLarge part)
  else .ok (ofDigits digits, rest)

/-- Reads the dot behind the number `part`. -/
def takeDot (part : Part) : List Char → Except Error (List Char)
  | [] => .error (.unexpectedEnd part)
  | c :: rest => if c = '.' then .ok rest else .error (.unexpectedCharAfter part c)

def isSegmentChar (c : Char) : Bool :=
  c.isAlphanum || c = '-'

/-- A segment of a pre-release part that consists of digits only is a number. -/
def checkSegment (part : Part) (segment : List Char) : Except Error Unit :=
  if segment.isEmpty then .error (.emptySegment part)
  else if part = .preRelease && segment.all Char.isDigit && segment.length > 1 &&
      segment.head? = some '0' then
    .error (.leadingZero part)
  else .ok ()

/-- Reads the longest run of segments joined by dots. -/
def takeSegments (part : Part) (text : List Char) : Except Error (List String × List Char) := do
  let inRun := fun c => isSegmentChar c || c = '.'
  let segments := (text.takeWhile inRun).splitOn '.'
  segments.forM (checkSegment part)
  return (segments.map String.ofList, text.dropWhile inRun)

/-- Reads the segments behind the sign that introduces them; without the sign there are
none. -/
def takeOptional (part : Part) (sign : Char) (text : List Char) :
    Except Error (Option (List String) × List Char) := do
  match text with
  | [] => return (none, [])
  | c :: rest =>
    if c = sign then
      let (segments, left) ← takeSegments part rest
      return (some segments, left)
    else
      return (none, c :: rest)

def parse (text : String) : Except Error Version := do
  if text.isEmpty then throw .empty
  let (major, rest) ← takeNumber .major text.toList
  let rest ← takeDot .major rest
  let (minor, rest) ← takeNumber .minor rest
  let rest ← takeDot .minor rest
  let (patch, rest) ← takeNumber .patch rest
  let (preRelease, rest) ← takeOptional .preRelease '-' rest
  let (build, rest) ← takeOptional .build '+' rest
  match rest with
  | [] => return ⟨major, minor, patch, preRelease.getD [], build.getD []⟩
  | c :: _ =>
    let last := if build.isSome then .build else if preRelease.isSome then .preRelease else .patch
    throw (.unexpectedCharAfter last c)

end Version
end Graft
