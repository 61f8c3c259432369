/-! # The lexical vocabulary of a build script

Comment markers and quotes, the kinds of stretches that are not code, and the states of a
cursor that reads a line.
-/
namespace Graft.Scan

/-- The markers of a script language of the C family. -/
structure Lexicon where
  lineComment : String := "//"
  blockOpen : String := "/*"
  blockClose : String := "*/"
  stringQuote : Char := '"'
  charQuote : Char := '\''
deriving DecidableEq, Repr

inductive Kind
  | lineComment
  | blockComment
  | stringLiteral
  | charLiteral
deriving DecidableEq, Repr

namespace Kind

def isComment : Kind → Bool
  | lineComment | blockComment => true
  | stringLiteral | charLiteral => false

def isLiteral : Kind → Bool
  | lineComment | blockComment => false
  | stringLiteral | charLiteral => true

theorem isLiteral_eq_not_isComment (k : Kind) : k.isLiteral = !k.isComment := by
  cases k <;> rfl

end Kind

inductive ScanState
  | code
  | inLineComment
  | inBlockComment
  | inStringLiteral
  | inCharLiteral
deriving DecidableEq, Repr

/-- The state in which the next line starts: only a block comment survives a newline. -/
def ScanState.carriedOver : ScanState → ScanState
  | inBlockComment => inBlockComment
  | _ => code

theorem ScanState.carriedOver_cases (s : ScanState) :
    s.carriedOver = .code ∨ s.carriedOver = .inBlockComment := by
  cases s <;> simp [carriedOver]

@[simp] theorem ScanState.carriedOver_carriedOver (s : ScanState) :
    s.carriedOver.carriedOver = s.carriedOver := by
  cases s <;> rfl

namespace Lexicon

/-- A block comment needs a marker: when both are empty there are no block comments. -/
def hasBlocks (lexicon : Lexicon) : Bool :=
  !(lexicon.blockOpen.isEmpty && lexicon.blockClose.isEmpty)

/-- The kind of literal that a quote opens; the string quote is tried first. -/
def literalKind? (lexicon : Lexicon) (c : Char) : Option Kind :=
  if c = lexicon.stringQuote then some .stringLiteral
  else if c = lexicon.charQuote then some .charLiteral
  else none

theorem isLiteral_of_literalKind? {lexicon : Lexicon} {c : Char} {k : Kind}
    (h : lexicon.literalKind? c = some k) : k.isLiteral = true := by
  unfold literalKind? at h
  split at h
  · cases h; rfl
  · split at h <;> cases h
    rfl

end Lexicon
end Graft.Scan
