import Graft.Scan.Line

/-! # Removing comments

Each line keeps its code and literals and ends in a newline; a line that lies wholly inside
a block comment opened before it is left out.
-/
namespace Graft.Scan

/-- What a piece contributes to the stripped text. -/
def Piece.kept (p : Piece) : List Char :=
  if p.isComment then [] else p.text

/-- Strips one line that starts in the state carried over from `before`. -/
def stripLine (lexicon : Lexicon) (before : ScanState) (line : List Char) : List Char :=
  if isInterior lexicon before line then []
  else (scanLine lexicon before line).pieces.flatMap Piece.kept ++ ['\n']

def stripFrom (lexicon : Lexicon) (before : ScanState) : List (List Char) → List Char
  | [] => []
  | line :: rest =>
    stripLine lexicon before line ++
      stripFrom lexicon (scanLine lexicon before line).state.carriedOver rest

/-- The text of the lines without their comments. -/
def strip (lexicon : Lexicon) (lines : List String) : String :=
  .ofList (stripFrom lexicon .code (lines.map String.toList))

end Graft.Scan
