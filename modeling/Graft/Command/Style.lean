import Graft.Text.Occurrence

/-! # Styled text

A terminal shows the text between an escape sequence and the reset sequence in a style.  A
reset inside the text is followed by the style again.
-/
namespace Graft.Command

inductive Style
  | bold
  | dimmed
  | red
  | green
  | yellow
  | cyan
deriving DecidableEq, Repr

def Style.code : Style → Nat
  | bold => 1
  | dimmed => 2
  | red => 31
  | green => 32
  | yellow => 33
  | cyan => 36

def Style.opening (s : Style) : String :=
  s!"\x1b[{s.code}m"

def reset : String := "\x1b[0m"

/-- A text in a style, or as it is when there are no colours. -/
def paint (colored : Bool) (style : Style) (text : String) : String :=
  if colored then
    style.opening ++ Text.substitute reset (reset ++ style.opening) text ++ reset
  else text

end Graft.Command
