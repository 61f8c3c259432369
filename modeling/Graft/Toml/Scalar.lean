import Graft.Toml.Value

/-! # Scalars without quotes

Booleans, numbers and times are written as one run of characters, told apart by their form.
-/
namespace Graft.Toml.Scalar
open Decimal

/-- The digits of a run in which single underscores may stand between digits. -/
def digits? (isDigit : Char → Bool) (text : List Char) : Option (List Char) :=
  let groups := text.splitOn '_'
  if groups.all fun group => !group.isEmpty && group.all isDigit then some groups.flatten
  else none

/-- The value of digits in a base up to sixteen. -/
def ofDigits (base : Nat) (digits : List Char) : Nat :=
  digits.foldl (fun n d => base * n + digitValue d) 0
where
  digitValue (d : Char) : Nat :=
    if d.isDigit then d.toNat - '0'.toNat else d.toLower.toNat - 'a'.toNat + 10

def isDigitOf (base : Nat) (c : Char) : Bool :=
  (c.isDigit || 'a' ≤ c.toLower && c.toLower ≤ 'f') && ofDigits base [c] < base

/-- A sign and what follows it; the first component tells whether the sign is a minus. -/
def signed : List Char → Bool × List Char
  | '-' :: rest => (true, rest)
  | '+' :: rest => (false, rest)
  | text => (false, text)

/-- Decimal digits without a needless leading zero. -/
def wholeNumber? (text : List Char) : Option (List Char) := do
  let digits ← digits? Char.isDigit text
  if 1 < digits.length && digits.head? = some '0' then none else some digits

/-- Integers have 64 bits. -/
def boundedInteger? (n : Int) : Option Value :=
  if -0x8000000000000000 ≤ n ∧ n < 0x8000000000000000 then some (.integer n) else none

def integer? (text : List Char) : Option Value :=
  let inBase := fun (base : Nat) (rest : List Char) => do
    let digits ← digits? (isDigitOf base) rest
    boundedInteger? (ofDigits base digits)
  match text with
  | '0' :: 'x' :: rest => inBase 16 rest
  | '0' :: 'o' :: rest => inBase 8 rest
  | '0' :: 'b' :: rest => inBase 2 rest
  | _ => do
    let (negative, rest) := signed text
    let digits ← wholeNumber? rest
    let n : Int := ofDigits 10 digits
    boundedInteger? (if negative then -n else n)

/-- A number with a fraction, an exponent or both.  One beyond the range of the format is
refused. -/
def decimal? (text : List Char) : Option Value := do
  let (negative, rest) := signed text
  let isExponentSign := fun c => c = 'e' || c = 'E'
  let mantissa := rest.takeWhile fun c => !isExponentSign c
  let whole ← wholeNumber? (mantissa.takeWhile (· ≠ '.'))
  let fraction ←
    match mantissa.dropWhile (· ≠ '.') with
    | [] => some []
    | _ :: places => digits? Char.isDigit places
  let exponent : Int ←
    match rest.dropWhile fun c => !isExponentSign c with
    | [] => if fraction.isEmpty then none else some 0
    | _ :: power => do
      let (negative, power) := signed power
      let n : Int := ofDigits 10 (← digits? Char.isDigit power)
      some (if negative then -n else n)
  let x ← Binary64.ofDecimal negative (ofDigits 10 (whole ++ fraction))
    (exponent - fraction.length)
  return .float x

def special? (text : List Char) : Option Value :=
  let (negative, rest) := signed text
  if rest = "inf".toList then some (.float (.infinite negative))
  else if rest = "nan".toList then some (.float .nan)
  else if text = "true".toList then some (.boolean true)
  else if text = "false".toList then some (.boolean false)
  else none

/-! ## Times -/

/-- A number of exactly `width` digits in the given range, and what follows it. -/
def field? (width low high : Nat) (text : List Char) : Option (Nat × List Char) :=
  let digits := text.take width
  let n := ofDigits 10 digits
  if digits.length = width ∧ digits.all Char.isDigit ∧ low ≤ n ∧ n ≤ high then
    some (n, text.drop width)
  else none

def skip? (expected : Char) : List Char → Option (List Char)
  | [] => none
  | c :: rest => if c = expected then some rest else none

def daysIn (year month : Nat) : Nat :=
  if month = 2 then
    if year % 4 = 0 ∧ (year % 100 ≠ 0 ∨ year % 400 = 0) then 29 else 28
  else if month = 4 ∨ month = 6 ∨ month = 9 ∨ month = 11 then 30
  else 31

def date? (text : List Char) : Option (List Char) := do
  let (year, rest) ← field? 4 0 9999 text
  let rest ← skip? '-' rest
  let (month, rest) ← field? 2 1 12 rest
  let rest ← skip? '-' rest
  let (_, rest) ← field? 2 1 (daysIn year month) rest
  return rest

/-- A fraction of a second has at least one digit. -/
def fraction? (text : List Char) : Option (List Char) :=
  match text with
  | '.' :: rest =>
    if (rest.takeWhile Char.isDigit).isEmpty then none else some (rest.dropWhile Char.isDigit)
  | _ => some text

/-- Hours and minutes, and seconds if they are given. -/
def time? (text : List Char) : Option (List Char) := do
  let (_, rest) ← field? 2 0 23 text
  let rest ← skip? ':' rest
  let (_, rest) ← field? 2 0 59 rest
  match rest with
  | ':' :: rest =>
    let (_, rest) ← field? 2 0 60 rest
    fraction? rest
  | _ => return rest

/-- Nothing, or a distance from universal time. -/
def offset? (text : List Char) : Option (List Char) :=
  match text with
  | 'Z' :: rest | 'z' :: rest => some rest
  | '+' :: rest | '-' :: rest => do
    let (_, rest) ← field? 2 0 23 rest
    let rest ← skip? ':' rest
    let (_, rest) ← field? 2 0 59 rest
    return rest
  | _ => some text

/-- A date, a time, or both, in which case an offset may follow. -/
def isMoment (text : List Char) : Bool :=
  match date? text with
  | some [] => true
  | some (delimiter :: rest) =>
    (delimiter = 'T' || delimiter = 't' || delimiter = ' ') &&
      ((time? rest).bind offset?) = some []
  | none => time? text = some []

def moment? (text : List Char) : Option Value :=
  if isMoment text then some (.datetime (.ofList text)) else none

/-- The value that a run of characters stands for. -/
def value? (text : List Char) : Option Value :=
  special? text <|> moment? text <|> integer? text <|> decimal? text

/-- The characters that the run of a scalar consists of. -/
def isScalarChar (c : Char) : Bool :=
  c.isAlphanum || c = '_' || c = '+' || c = '-' || c = '.' || c = ':'

/-- Cuts off the run of a scalar.  A date may be joined to its time by one space. -/
def cut (text : List Char) : List Char × List Char :=
  let run := text.takeWhile isScalarChar
  let rest := text.dropWhile isScalarChar
  match rest with
  | ' ' :: d :: more =>
    if date? run = some [] ∧ d.isDigit then
      (run ++ ' ' :: (d :: more).takeWhile isScalarChar, (d :: more).dropWhile isScalarChar)
    else (run, rest)
  | _ => (run, rest)

end Graft.Toml.Scalar
