/-! # Readers

A reader takes something off the front of a text and leaves the rest, or fails.
-/
namespace Graft.Toml

abbrev Reader := StateT (List Char) Option

namespace Reader

def anyChar : Reader Char
  | [] => none
  | c :: rest => some (c, rest)

/-- The next character, which stays. -/
def peek? : Reader (Option Char) := fun text => some (text.head?, text)

def atEnd : Reader Bool := fun text => some (text.isEmpty, text)

/-- Takes the given text, or fails. -/
def token (expected : String) : Reader Unit := fun text =>
  if expected.toList.isPrefixOf text then
    some ((), text.drop expected.toList.length)
  else none

/-- Takes the given text if it comes next. -/
def optional (expected : String) : Reader Bool := fun text =>
  if expected.toList.isPrefixOf text then
    some (true, text.drop expected.toList.length)
  else some (false, text)

/-- The longest run of characters that satisfy `p`. -/
def run (p : Char → Bool) : Reader (List Char) := fun text =>
  some (text.takeWhile p, text.dropWhile p)

/-- The next `n` characters, all of which satisfy `p`. -/
def exactly (n : Nat) (p : Char → Bool) : Reader (List Char) := fun text =>
  let taken := text.take n
  if taken.length = n ∧ taken.all p then some (taken, text.drop n) else none

/-- Repeats a reader that says when it is done, at most once per character of the text and
once more. -/
def collect {α : Type} (step : Reader (Option α)) : Reader (List α) := fun text =>
  go (text.length + 1) text
where
  go : Nat → Reader (List α)
    | 0, _ => none
    | fuel + 1, text => do
      match ← step text with
      | (none, rest) => some ([], rest)
      | (some item, rest) =>
        let (items, rest) ← go fuel rest
        some (item :: items, rest)

end Reader
end Graft.Toml
