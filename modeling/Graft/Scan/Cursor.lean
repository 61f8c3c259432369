import Graft.Scan.Classification

/-! # Scanning a line with a cursor

The scan of a line as a loop.  A cursor stands at a byte offset of the line in one of the states
of the scan; every turn of the loop looks at what is left of the line from there, and the loop
ends when nothing is left.  The line can only be cut between two characters: a turn that would
cut it anywhere else is a fault.
-/
namespace Graft.Scan
open Graft.Text

namespace Lexicon

/-- The state behind a quote that opens a literal; the string quote is tried first. -/
def literalState? (lexicon : Lexicon) (c : Char) : Option ScanState :=
  if c = lexicon.stringQuote then some .inStringLiteral
  else if c = lexicon.charQuote then some .inCharLiteral
  else none

/-- The quote that closes the literal of a state, and the kind of that literal. -/
def closingQuote? (lexicon : Lexicon) : ScanState → Option (Char × Kind)
  | .inStringLiteral => some (lexicon.stringQuote, .stringLiteral)
  | .inCharLiteral => some (lexicon.charQuote, .charLiteral)
  | .code | .inLineComment | .inBlockComment => none

end Lexicon

structure Cursor where
  state : ScanState
  /-- Where the comment or literal starts in which the cursor stands. -/
  opened : Nat
  pos : Nat
  /-- The comments and literals that end in front of the cursor. -/
  found : List Segment
  /-- A block comment has been closed on this line. -/
  closed : Bool
deriving DecidableEq, Repr

/-- What a turn of the loop comes to. -/
inductive Turn
  | next (cursor : Cursor)
  /-- The loop is left in the middle of the line. -/
  | leave
  /-- The line is cut inside a character or behind its end. -/
  | fault
deriving DecidableEq, Repr

namespace Cursor

/-- The cursor at the start of a line, in the state carried over from `before`. -/
def start (before : ScanState) : Cursor :=
  ⟨before.carriedOver, 0, 0, [], false⟩

/-- Behind a marker of `width` bytes that opens a comment or literal. -/
def enter (c : Cursor) (state : ScanState) (width : Nat) : Cursor :=
  { c with state, opened := c.pos, pos := c.pos + width }

/-- Back in code behind a comment or literal that ends at `stop`. -/
def complete (c : Cursor) (kind : Kind) (stop : Nat) : Cursor :=
  { c with state := .code, pos := stop, found := c.found ++ [⟨kind, c.opened, stop⟩] }

@[simp] theorem state_enter (c : Cursor) (state : ScanState) (width : Nat) :
    (c.enter state width).state = state := rfl

@[simp] theorem state_complete (c : Cursor) (kind : Kind) (stop : Nat) :
    (c.complete kind stop).state = .code := rfl

section
variable (lexicon : Lexicon) (line : List Char)

def turnInCode (c : Cursor) (rest : List Char) : Turn :=
  if lexicon.opensLineComment rest then
    .next { c with state := .inLineComment, opened := c.pos, pos := byteLength line }
  else if lexicon.blockOpen.toList.isPrefixOf rest then
    .next (c.enter .inBlockComment (byteLength lexicon.blockOpen.toList))
  else
    match rest with
    | [] => .leave
    | first :: _ =>
      match lexicon.literalState? first with
      | none => .next { c with pos := c.pos + first.utf8Size }
      | some state =>
        -- a quote opens a literal only if it occurs again on the line
        match sliceFrom? first.utf8Size rest with
        | none => .fault
        | some more =>
          if first ∈ more then .next (c.enter state first.utf8Size)
          else .next { c with pos := c.pos + first.utf8Size }

def turnInBlock (c : Cursor) (rest : List Char) : Turn :=
  match firstPlace? lexicon.blockClose.toList rest with
  | none => .next { c with pos := byteLength line }
  | some distance =>
    let stop := c.pos + (distance + byteLength lexicon.blockClose.toList)
    .next { c.complete .blockComment stop with closed := true }

def turnInLiteral (c : Cursor) (rest : List Char) : Turn :=
  match lexicon.closingQuote? c.state with
  | none => .leave
  | some (quote, kind) =>
    match firstPlace? [quote] rest with
    | none => .next { c with pos := byteLength line }
    | some distance => .next (c.complete kind (c.pos + (distance + quote.utf8Size)))

/-- One turn of the loop. -/
def turn (c : Cursor) : Turn :=
  match sliceFrom? c.pos line with
  | none => .fault
  | some rest =>
    match c.state with
    | .code => c.turnInCode lexicon line rest
    | .inLineComment => .next { c with pos := byteLength line }
    | .inBlockComment => c.turnInBlock lexicon line rest
    | .inStringLiteral | .inCharLiteral => c.turnInLiteral lexicon line rest

/-- The cursor after a number of turns, if the loop goes on for so long. -/
def after : Nat → Cursor → Option Cursor
  | 0, c => some c
  | turns + 1, c =>
    if c.pos < byteLength line then
      match c.turn lexicon line with
      | .next d => after turns d
      | .leave | .fault => none
    else none

/-- What has been found when the loop has ended: a comment that is still open runs to the end
of the line. -/
def segments (c : Cursor) : List Segment :=
  match c.state with
  | .inLineComment => c.found ++ [⟨.lineComment, c.opened, byteLength line⟩]
  | .inBlockComment => c.found ++ [⟨.blockComment, c.opened, byteLength line⟩]
  | .code | .inStringLiteral | .inCharLiteral => c.found

end

/-- Whether the line continues a block comment opened before it and closes none. -/
def interior (c : Cursor) (before : ScanState) : Bool :=
  before.carriedOver = .inBlockComment && !c.closed

end Cursor
end Graft.Scan
