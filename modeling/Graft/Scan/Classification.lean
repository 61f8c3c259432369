import Graft.Scan.Line
import Graft.Scan.Span
import Graft.Text.Line

/-! # Classification of a text

The comments and literals of a text as segments with byte offsets, and the state at its
end.  The text is read line by line; a block comment that runs over several lines is one
segment, which holds the newlines it covers.
-/
namespace Graft.Scan
open Graft.Text

structure Segment where
  kind : Kind
  span : Span
deriving DecidableEq, Repr

namespace Segment

def shift (s : Segment) (distance : Nat) : Segment :=
  { s with span := s.span.shift distance }

end Segment

/-- The marked pieces as segments of a text in which the first piece starts at `offset`. -/
def segmentsFrom (offset : Nat) : List Piece → List Segment
  | [] => []
  | .code c :: rest => segmentsFrom (offset + c.utf8Size) rest
  | .marked kind text :: rest =>
    ⟨kind, offset, offset + byteLength text⟩ :: segmentsFrom (offset + byteLength text) rest

def LineScan.segments (scan : LineScan) : List Segment :=
  segmentsFrom 0 scan.pieces

/-- Adds the segments of a line that starts inside a block comment: the first of them
belongs to the last segment found before. -/
def joinCarried (earlier : List Segment) : List Segment → List Segment
  | [] => earlier
  | first :: later =>
    match earlier.getLast? with
    | none => later
    | some opened =>
      earlier.dropLast ++ { opened with span := ⟨opened.span.start, first.span.stop⟩ } :: later

/-- The outcome of the lines read so far, and the offset at which the next line starts. -/
structure Progress where
  segments : List Segment
  state : ScanState
  offset : Nat

namespace Progress

def start : Progress :=
  ⟨[], .code, 0⟩

def addLine (lexicon : Lexicon) (p : Progress) (line : List Char) : Progress :=
  let scan := scanLine lexicon p.state line
  let found := segmentsFrom p.offset scan.pieces
  { segments :=
      if p.state = .inBlockComment then joinCarried p.segments found else p.segments ++ found
    state := scan.state.carriedOver
    offset := p.offset + byteLength line + 1 }

end Progress

structure Classification where
  segments : List Segment
  endState : ScanState
deriving DecidableEq, Repr

namespace Classification

def ofLines (lexicon : Lexicon) (lines : List (List Char)) : Classification :=
  let final := lines.foldl (Progress.addLine lexicon) .start
  ⟨final.segments, final.state⟩

/-- Classifies a text, read line by line. -/
def of (lexicon : Lexicon) (text : String) : Classification :=
  ofLines lexicon (lines text.toList)

/-- The spans of the literals, quotes included, from left to right. -/
def literals (c : Classification) : List Span :=
  (c.segments.filter (·.kind.isLiteral)).map (·.span)

end Classification
end Graft.Scan
