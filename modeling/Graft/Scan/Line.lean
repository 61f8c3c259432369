import Graft.Scan.Lexicon
import Graft.Text.Occurrence

/-! # Scanning one line

A line is read from the state that the line before it left behind.  The result is the line
cut into pieces: single characters of code, and marked stretches that are a comment or a
literal.  The pieces put together are the line (`text_scanLine`).  A quote opens a literal
only when it occurs again on the line, so no literal is ever left open.
-/
namespace Graft.Scan
open Graft.Text

inductive Piece
  | code (c : Char)
  | marked (kind : Kind) (text : List Char)
deriving DecidableEq, Repr

namespace Piece

def text : Piece → List Char
  | code c => [c]
  | marked _ text => text

def isComment : Piece → Bool
  | code _ => false
  | marked kind _ => kind.isComment

end Piece

/-- A line cut into pieces, and the state of the cursor behind its last one. -/
structure LineScan where
  pieces : List Piece
  state : ScanState
deriving DecidableEq, Repr

namespace LineScan

def push (piece : Piece) (scan : LineScan) : LineScan :=
  { scan with pieces := piece :: scan.pieces }

@[simp] theorem pieces_push (piece : Piece) (scan : LineScan) :
    (scan.push piece).pieces = piece :: scan.pieces := rfl

@[simp] theorem state_push (piece : Piece) (scan : LineScan) :
    (scan.push piece).state = scan.state := rfl

def text (scan : LineScan) : List Char :=
  scan.pieces.flatMap Piece.text

@[simp] theorem text_push (piece : Piece) (scan : LineScan) :
    (scan.push piece).text = piece.text ++ scan.text := by
  simp [text, push]

end LineScan

namespace Lexicon

def opensLineComment (lexicon : Lexicon) (text : List Char) : Bool :=
  lexicon.lineComment.toList.isPrefixOf text

def opensBlock (lexicon : Lexicon) (text : List Char) : Bool :=
  lexicon.hasBlocks && lexicon.blockOpen.toList.isPrefixOf text

/-- Splits a text that starts with the opening marker behind the block comment that opens
there. -/
def takeBlock (lexicon : Lexicon) (text : List Char) : Option (List Char × List Char) :=
  (takeThrough lexicon.blockClose.toList (text.drop lexicon.blockOpen.toList.length)).map
    fun (body, rest) => (lexicon.blockOpen.toList ++ body, rest)

/-- Splits a text behind the literal that opens with its first character `c`. -/
def takeLiteral (lexicon : Lexicon) (c : Char) (rest : List Char) :
    Option (Kind × List Char × List Char) :=
  match lexicon.literalKind? c with
  | none => none
  | some kind => (takeThrough [c] rest).map fun (body, left) => (kind, c :: body, left)

theorem takeBlock_append {lexicon : Lexicon} {text block rest : List Char}
    (ho : lexicon.opensBlock text = true) (h : lexicon.takeBlock text = some (block, rest)) :
    block ++ rest = text := by
  obtain ⟨⟨body, left⟩, ht, he⟩ := Option.map_eq_some_iff.mp h
  obtain ⟨rfl, rfl⟩ := by simpa using he
  simp only [opensBlock, Bool.and_eq_true] at ho
  obtain ⟨tail, rfl⟩ := List.isPrefixOf_iff_prefix.mp ho.2
  rw [List.drop_left] at ht
  rw [List.append_assoc, takeThrough_append ht]

theorem length_lt_of_takeBlock {lexicon : Lexicon} {text block rest : List Char}
    (ho : lexicon.opensBlock text = true) (h : lexicon.takeBlock text = some (block, rest)) :
    rest.length < text.length := by
  rw [← takeBlock_append ho h, List.length_append]
  obtain ⟨⟨body, left⟩, ht, he⟩ := Option.map_eq_some_iff.mp h
  obtain ⟨rfl, rfl⟩ := by simpa using he
  have hb := length_le_of_takeThrough ht
  simp only [opensBlock, hasBlocks, Bool.and_eq_true, Bool.not_eq_true', Bool.and_eq_false_iff,
    String.isEmpty_eq_false_iff] at ho
  have hpos : ∀ {s : String}, s ≠ "" → 0 < s.toList.length := by
    intro s hs
    rw [List.length_pos_iff]
    exact fun h => hs (String.toList_eq_nil_iff.mp h)
  rcases ho.1 with h | h <;> have := hpos h <;> rw [List.length_append] <;> omega

theorem ne_nil_of_takeBlock {lexicon : Lexicon} {text block rest : List Char}
    (ho : lexicon.opensBlock text = true) (h : lexicon.takeBlock text = some (block, rest)) :
    block ≠ [] := by
  have hlt := length_lt_of_takeBlock ho h
  rintro rfl
  simp [← takeBlock_append ho h] at hlt

theorem takeLiteral_append {lexicon : Lexicon} {c : Char} {text literal rest : List Char}
    {kind : Kind} (h : lexicon.takeLiteral c text = some (kind, literal, rest)) :
    literal ++ rest = c :: text := by
  unfold takeLiteral at h
  split at h
  · cases h
  · obtain ⟨⟨body, left⟩, ht, he⟩ := Option.map_eq_some_iff.mp h
    obtain ⟨rfl, rfl, rfl⟩ := by simpa using he
    rw [List.cons_append, takeThrough_append ht]

theorem length_lt_of_takeLiteral {lexicon : Lexicon} {c : Char} {text literal rest : List Char}
    {kind : Kind} (h : lexicon.takeLiteral c text = some (kind, literal, rest)) :
    rest.length < (c :: text).length := by
  rw [← takeLiteral_append h, List.length_append]
  unfold takeLiteral at h
  split at h
  · cases h
  · obtain ⟨⟨body, left⟩, _, he⟩ := Option.map_eq_some_iff.mp h
    obtain ⟨rfl, rfl, rfl⟩ := by simpa using he
    simp

theorem ne_nil_of_takeLiteral {lexicon : Lexicon} {c : Char} {text literal rest : List Char}
    {kind : Kind} (h : lexicon.takeLiteral c text = some (kind, literal, rest)) :
    literal ≠ [] := by
  have hlt := length_lt_of_takeLiteral h
  rintro rfl
  simp [← takeLiteral_append h] at hlt

end Lexicon

/-- Scans the rest of a line from a position in code. -/
def scanCode (lexicon : Lexicon) (line : List Char) : LineScan :=
  match line with
  | [] => ⟨[], .code⟩
  | c :: rest =>
    if lexicon.opensLineComment (c :: rest) then
      ⟨[.marked .lineComment (c :: rest)], .inLineComment⟩
    else if _ho : lexicon.opensBlock (c :: rest) then
      match _h : lexicon.takeBlock (c :: rest) with
      | none => ⟨[.marked .blockComment (c :: rest)], .inBlockComment⟩
      | some (block, left) => (scanCode lexicon left).push (.marked .blockComment block)
    else
      match _h : lexicon.takeLiteral c rest with
      | none => (scanCode lexicon rest).push (.code c)
      | some (kind, literal, left) => (scanCode lexicon left).push (.marked kind literal)
  termination_by line.length
  decreasing_by
    · exact Lexicon.length_lt_of_takeBlock _ho _h
    · exact Nat.lt_succ_self _
    · exact Lexicon.length_lt_of_takeLiteral _h

/-- Scans a line whose first character lies in a block comment opened before. -/
def scanBlock (lexicon : Lexicon) (line : List Char) : LineScan :=
  match takeThrough lexicon.blockClose.toList line with
  | none => ⟨[.marked .blockComment line], .inBlockComment⟩
  | some (block, rest) => (scanCode lexicon rest).push (.marked .blockComment block)

/-- Scans a line that starts in the state carried over from `before`. -/
def scanLine (lexicon : Lexicon) (before : ScanState) (line : List Char) : LineScan :=
  match before.carriedOver with
  | .inBlockComment => scanBlock lexicon line
  | _ => scanCode lexicon line

/-- Whether a line continues a block comment opened before it and does not close it. -/
def isInterior (lexicon : Lexicon) (before : ScanState) (line : List Char) : Bool :=
  before.carriedOver = .inBlockComment &&
    (takeThrough lexicon.blockClose.toList line).isNone

section
variable {lexicon : Lexicon} {c : Char} {rest : List Char}

theorem scanCode_lineComment (hl : lexicon.opensLineComment (c :: rest) = true) :
    scanCode lexicon (c :: rest) = ⟨[.marked .lineComment (c :: rest)], .inLineComment⟩ := by
  rw [scanCode, if_pos hl]

variable (hl : lexicon.opensLineComment (c :: rest) = false)
include hl

theorem scanCode_unclosed (ho : lexicon.opensBlock (c :: rest) = true)
    (hb : lexicon.takeBlock (c :: rest) = none) :
    scanCode lexicon (c :: rest) = ⟨[.marked .blockComment (c :: rest)], .inBlockComment⟩ := by
  rw [scanCode, if_neg (by simp [hl]), dif_pos ho]
  split
  · rfl
  · next h => simp [h] at hb

theorem scanCode_block {block left : List Char} (ho : lexicon.opensBlock (c :: rest) = true)
    (hb : lexicon.takeBlock (c :: rest) = some (block, left)) :
    scanCode lexicon (c :: rest) = (scanCode lexicon left).push (.marked .blockComment block) := by
  rw [scanCode, if_neg (by simp [hl]), dif_pos ho]
  split
  · next h => simp [h] at hb
  · next h => simp_all

theorem scanCode_code (ho : lexicon.opensBlock (c :: rest) = false)
    (hq : lexicon.takeLiteral c rest = none) :
    scanCode lexicon (c :: rest) = (scanCode lexicon rest).push (.code c) := by
  rw [scanCode, if_neg (by simp [hl]), dif_neg (by simp [ho])]
  split
  · rfl
  · next h => simp [h] at hq

theorem scanCode_literal {literal left : List Char} {kind : Kind}
    (ho : lexicon.opensBlock (c :: rest) = false)
    (hq : lexicon.takeLiteral c rest = some (kind, literal, left)) :
    scanCode lexicon (c :: rest) = (scanCode lexicon left).push (.marked kind literal) := by
  rw [scanCode, if_neg (by simp [hl]), dif_neg (by simp [ho])]
  split
  · next h => simp [h] at hq
  · next h => simp_all

end

theorem text_scanCode (lexicon : Lexicon) (line : List Char) :
    (scanCode lexicon line).text = line := by
  fun_induction scanCode lexicon line with
  | case1 => rfl
  | case2 => simp [LineScan.text, Piece.text]
  | case3 => simp [LineScan.text, Piece.text]
  | case4 c rest _ ho block left h ih =>
    simpa [Piece.text, ih] using Lexicon.takeBlock_append ho h
  | case5 c rest _ _ h ih => simp [Piece.text, ih]
  | case6 c rest _ _ kind literal left h ih =>
    simpa [Piece.text, ih] using Lexicon.takeLiteral_append h

theorem text_scanLine (lexicon : Lexicon) (before : ScanState) (line : List Char) :
    (scanLine lexicon before line).text = line := by
  unfold scanLine
  split
  · unfold scanBlock
    split
    · simp [LineScan.text, Piece.text]
    · next block rest h =>
      simp [Piece.text, text_scanCode, takeThrough_append h]
  · exact text_scanCode lexicon line

end Graft.Scan
