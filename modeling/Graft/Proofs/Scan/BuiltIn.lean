import Graft.Proofs.Scan.Insertion

/-! # Reading with the built-in lexicon

Text without slashes and quotes is code, and a quoted text that holds no quote and no newline
is a literal, whatever follows.  So a statement that quotes one value is read as code around
one literal.
-/
namespace Graft.Scan
open Graft.Text

/-- A character that opens neither a comment nor a literal. -/
def isPlain (c : Char) : Bool :=
  c ≠ '/' && c ≠ '"' && c ≠ '\''

theorem isPlain_iff {c : Char} : isPlain c = true ↔ c ≠ '/' ∧ c ≠ '"' ∧ c ≠ '\'' := by
  simp [isPlain, and_assoc]

/-- A text in double quotes. -/
def quoted (text : List Char) : List Char :=
  '"' :: text ++ ['"']

theorem Lexicon.opensLineComment_builtIn {c : Char} (h : c ≠ '/') (line : List Char) :
    ({} : Lexicon).opensLineComment (c :: line) = false := by
  simp [opensLineComment, List.isPrefixOf, Ne.symm h]

theorem Lexicon.opensBlock_builtIn {c : Char} (h : c ≠ '/') (line : List Char) :
    ({} : Lexicon).opensBlock (c :: line) = false := by
  simp [opensBlock, List.isPrefixOf, Ne.symm h]

theorem Lexicon.literalKind?_builtIn {c : Char} (h : isPlain c = true) :
    ({} : Lexicon).literalKind? c = none := by
  obtain ⟨_, hs, hc⟩ := isPlain_iff.mp h
  simp [literalKind?, hs, hc]

theorem Step.plain {c : Char} (h : isPlain c = true) (rest : List Char) :
    Step {} (c :: rest) (.code c) rest := by
  by_cases hc : c = '\n'
  · subst hc
    exact .newline rest
  · have hn : '\n' ∉ c :: (cutLine rest).1 := by simp [Ne.symm hc, notMem_cutLine]
    have hq : ({} : Lexicon).takeLiteral c (cutLine rest).1 = none :=
      Lexicon.takeLiteral_eq_none_iff.mpr (.inl (Lexicon.literalKind?_builtIn h))
    have hslash := (isPlain_iff.mp h).1
    have hs := Step.code hn (lineEnd_cutLine rest) (Lexicon.opensLineComment_builtIn hslash _)
      (Lexicon.opensBlock_builtIn hslash _) hq
    rwa [List.cons_append, cutLine_append] at hs

theorem readsAs_plain {text : List Char} (h : text.all isPlain = true) :
    ReadsAs {} text (text.map .code) := by
  intro more
  induction text with
  | nil => exact .done more
  | cons c text ih =>
    rw [List.all_cons, Bool.and_eq_true] at h
    obtain ⟨hc, ht⟩ := h
    exact .step (.plain hc (text ++ more)) (ih ht)

theorem readsAs_quoted {text : List Char} (hq : '"' ∉ text) (hn : '\n' ∉ text) :
    ReadsAs {} (quoted text) [.marked .stringLiteral (quoted text)] := by
  intro more
  have hline : '\n' ∉ '"' :: (text ++ '"' :: (cutLine more).1) := by
    simp [hn, notMem_cutLine]
  have ht : ({} : Lexicon).takeLiteral '"' (text ++ '"' :: (cutLine more).1) =
      some (.stringLiteral, quoted text, (cutLine more).1) := by
    simp [Lexicon.takeLiteral, Lexicon.literalKind?, takeThrough_singleton hq, quoted]
  have hs := Step.literal hline (lineEnd_cutLine more)
    (Lexicon.opensLineComment_builtIn (by decide) _) (Lexicon.opensBlock_builtIn (by decide) _) ht
  rw [cutLine_append] at hs
  refine .step ?_ (.done more)
  simpa [quoted, cutLine_append] using hs

/-- The pieces of a text that quotes one value. -/
def quotingPieces (lead value tail : List Char) : List Piece :=
  lead.map .code ++ .marked .stringLiteral (quoted value) :: tail.map .code

theorem readsAs_quoting {lead value tail : List Char} (hl : lead.all isPlain = true)
    (ht : tail.all isPlain = true) (hq : '"' ∉ value) (hn : '\n' ∉ value) :
    ReadsAs {} (lead ++ quoted value ++ tail) (quotingPieces lead value tail) := by
  have h := ((readsAs_plain hl).append (readsAs_quoted hq hn)).append (readsAs_plain ht)
  simpa [quotingPieces] using h

theorem isComment_quotingPieces {lead value tail : List Char} {piece : Piece}
    (h : piece ∈ quotingPieces lead value tail) : piece.isComment = false := by
  simp only [quotingPieces, List.mem_append, List.mem_map, List.mem_cons] at h
  rcases h with ⟨c, _, rfl⟩ | rfl | ⟨c, _, rfl⟩ <;> rfl

theorem segmentsFrom_code (offset : Nat) (text : List Char) :
    segmentsFrom offset (text.map .code) = [] := by
  induction text generalizing offset with
  | nil => rfl
  | cons c text ih => exact ih (offset + c.utf8Size)

theorem segmentsFrom_quotingPieces (offset : Nat) (lead value tail : List Char) :
    segmentsFrom offset (quotingPieces lead value tail) =
      [⟨.stringLiteral, offset + byteLength lead,
        offset + byteLength lead + byteLength (quoted value)⟩] := by
  have hlead : (lead.map Piece.code).flatMap Piece.text = lead := by
    simp [List.flatMap_map, Piece.text]
  rw [quotingPieces, segmentsFrom_append, segmentsFrom_code, hlead, List.nil_append, segmentsFrom,
    segmentsFrom_code]

end Graft.Scan
