import Graft.Proofs.Scan.Marker

/-! # Reading a text piece by piece

One step of the scan in a single pass takes one piece off a text, with everything that
follows still present.  A reading is a run of such steps.  It ends at the end of the text or
at a block comment that nothing closes (`exists_reads`), and the scan of the whole text is
the reading followed by the scan of what it leaves (`Reads.scanText`).
-/
namespace Graft.Scan
open Graft.Text

variable {lexicon : Lexicon}

/-- The next piece of a text that is in code, and what follows it.  The text is cut at the
end of its current line. -/
inductive Step (lexicon : Lexicon) : List Char → Piece → List Char → Prop
  | newline (rest : List Char) : Step lexicon ('\n' :: rest) (.code '\n') rest
  | lineComment {c : Char} {line tail : List Char} (hn : '\n' ∉ c :: line) (ht : LineEnd tail)
      (hl : lexicon.opensLineComment (c :: line) = true) :
      Step lexicon (c :: line ++ tail) (.marked .lineComment (c :: line)) tail
  | block {c : Char} {line tail block left : List Char} (hn : '\n' ∉ c :: line)
      (ht : LineEnd tail) (hl : lexicon.opensLineComment (c :: line) = false)
      (ho : lexicon.opensBlock (c :: line) = true)
      (hb : lexicon.takeBlock (c :: line ++ tail) = some (block, left)) :
      Step lexicon (c :: line ++ tail) (.marked .blockComment block) left
  | literal {c : Char} {line tail literal left : List Char} {kind : Kind}
      (hn : '\n' ∉ c :: line) (ht : LineEnd tail)
      (hl : lexicon.opensLineComment (c :: line) = false)
      (ho : lexicon.opensBlock (c :: line) = false)
      (hq : lexicon.takeLiteral c line = some (kind, literal, left)) :
      Step lexicon (c :: line ++ tail) (.marked kind literal) (left ++ tail)
  | code {c : Char} {line tail : List Char} (hn : '\n' ∉ c :: line) (ht : LineEnd tail)
      (hl : lexicon.opensLineComment (c :: line) = false)
      (ho : lexicon.opensBlock (c :: line) = false)
      (hq : lexicon.takeLiteral c line = none) :
      Step lexicon (c :: line ++ tail) (.code c) (line ++ tail)

/-- A block comment opens here and runs to the end of the text. -/
inductive Unclosed (lexicon : Lexicon) : List Char → Prop
  | intro {c : Char} {line tail : List Char} (hn : '\n' ∉ c :: line) (ht : LineEnd tail)
      (hl : lexicon.opensLineComment (c :: line) = false)
      (ho : lexicon.opensBlock (c :: line) = true)
      (hb : lexicon.takeBlock (c :: line ++ tail) = none) : Unclosed lexicon (c :: line ++ tail)

/-- Some steps, with the pieces that they take. -/
inductive Reads (lexicon : Lexicon) : List Char → List Piece → List Char → Prop
  | done (text : List Char) : Reads lexicon text [] text
  | step {text middle left : List Char} {piece : Piece} {pieces : List Piece}
      (first : Step lexicon text piece middle) (later : Reads lexicon middle pieces left) :
      Reads lexicon text (piece :: pieces) left

/-- Every text is empty, opens a comment that nothing closes, or allows a step. -/
theorem step_cases (lexicon : Lexicon) (text : List Char) :
    text = [] ∨ Unclosed lexicon text ∨ ∃ piece rest, Step lexicon text piece rest := by
  cases text with
  | nil => exact .inl rfl
  | cons c rest =>
    by_cases hc : c = '\n'
    · subst hc
      exact .inr (.inr ⟨_, _, .newline rest⟩)
    have hn : '\n' ∉ c :: (cutLine rest).1 := by simp [Ne.symm hc, notMem_cutLine]
    have ht := lineEnd_cutLine rest
    rw [← cutLine_append rest, ← List.cons_append]
    cases hl : lexicon.opensLineComment (c :: (cutLine rest).1) with
    | true => exact .inr (.inr ⟨_, _, .lineComment hn ht hl⟩)
    | false =>
      cases ho : lexicon.opensBlock (c :: (cutLine rest).1) with
      | true =>
        cases hb : lexicon.takeBlock (c :: (cutLine rest).1 ++ (cutLine rest).2) with
        | none => exact .inr (.inl (.intro hn ht hl ho hb))
        | some found => exact .inr (.inr ⟨_, found.2, .block hn ht hl ho hb⟩)
      | false =>
        cases hq : lexicon.takeLiteral c (cutLine rest).1 with
        | none => exact .inr (.inr ⟨_, _, .code hn ht hl ho hq⟩)
        | some found => exact .inr (.inr ⟨_, _, .literal hn ht hl ho hq⟩)

theorem Step.text {text rest : List Char} {piece : Piece} (h : Step lexicon text piece rest) :
    piece.text ++ rest = text := by
  cases h with
  | newline rest => rfl
  | lineComment hn ht hl => rfl
  | block hn ht hl ho hb =>
    exact Lexicon.takeBlock_append (Lexicon.opensBlock_mono (List.prefix_append _ _) ho) hb
  | @literal c line tail literal left kind hn ht hl ho hq =>
    change literal ++ (left ++ tail) = c :: line ++ tail
    rw [← List.append_assoc, Lexicon.takeLiteral_append hq]
  | code hn ht hl ho hq => rfl

theorem Step.text_ne_nil {text rest : List Char} {piece : Piece}
    (h : Step lexicon text piece rest) : piece.text ≠ [] := by
  cases h with
  | newline rest => exact List.cons_ne_nil _ _
  | lineComment hn ht hl => exact List.cons_ne_nil _ _
  | @block c line tail block left hn ht hl ho hb =>
    exact Lexicon.ne_nil_of_takeBlock
      (Lexicon.opensBlock_mono (List.prefix_append _ tail) ho) hb
  | literal hn ht hl ho hq => exact Lexicon.ne_nil_of_takeLiteral hq
  | code hn ht hl ho hq => exact List.cons_ne_nil _ _

theorem Step.length_lt {text rest : List Char} {piece : Piece}
    (h : Step lexicon text piece rest) : rest.length < text.length := by
  rw [← h.text, List.length_append]
  have := List.length_pos_iff.mpr h.text_ne_nil
  omega

/-- The cut that the scan makes at the end of the line. -/
private theorem cutLine_cons_append {c : Char} {line tail : List Char} (hn : '\n' ∉ c :: line)
    (ht : LineEnd tail) :
    c ≠ '\n' ∧ cutLine (c :: (line ++ tail)) = (c :: line, tail) ∧
      cutLine (line ++ tail) = (line, tail) := by
  have hm : '\n' ≠ c ∧ '\n' ∉ line := by simpa using hn
  exact ⟨Ne.symm hm.1, cutLine_append_of_lineEnd hn ht, cutLine_append_of_lineEnd hm.2 ht⟩

theorem Step.scanText {text rest : List Char} {piece : Piece} (h : Step lexicon text piece rest) :
    scanText lexicon text = (scanText lexicon rest).push piece := by
  cases h with
  | newline rest => rw [Scan.scanText, dif_pos rfl]
  | lineComment hn ht hl =>
    obtain ⟨hc, hcut, _⟩ := cutLine_cons_append hn ht
    rw [List.cons_append, Scan.scanText, dif_neg hc, hcut, if_pos hl]
  | block hn ht hl ho hb =>
    obtain ⟨hc, hcut, _⟩ := cutLine_cons_append hn ht
    rw [List.cons_append] at hb ⊢
    rw [Scan.scanText, dif_neg hc, hcut, if_neg (by simp [hl]), dif_pos ho]
    split
    · next h => simp [h] at hb
    · next h => simp_all
  | literal hn ht hl ho hq =>
    obtain ⟨hc, hcut, hcut'⟩ := cutLine_cons_append hn ht
    rw [List.cons_append, Scan.scanText, dif_neg hc, hcut, hcut', if_neg (by simp [hl]),
      dif_neg (by simp [ho])]
    split
    · next h => simp [h] at hq
    · next h => simp_all
  | code hn ht hl ho hq =>
    obtain ⟨hc, hcut, hcut'⟩ := cutLine_cons_append hn ht
    rw [List.cons_append, Scan.scanText, dif_neg hc, hcut, hcut', if_neg (by simp [hl]),
      dif_neg (by simp [ho])]
    split
    · rfl
    · next h => simp [h] at hq

theorem Unclosed.scanText {text : List Char} (h : Unclosed lexicon text) :
    scanText lexicon text = ⟨[.marked .blockComment text], .inBlockComment⟩ := by
  cases h with
  | intro hn ht hl ho hb =>
    obtain ⟨hc, hcut, _⟩ := cutLine_cons_append hn ht
    rw [List.cons_append] at hb ⊢
    rw [Scan.scanText, dif_neg hc, hcut, if_neg (by simp [hl]), dif_pos ho]
    split
    · rfl
    · next h => simp [h] at hb

theorem Unclosed.ne_nil {text : List Char} (h : Unclosed lexicon text) : text ≠ [] := by
  cases h with
  | intro hn ht hl ho hb => exact List.cons_ne_nil _ _

namespace LineScan

/-- A scan with the pieces that were read before it. -/
def behind (pieces : List Piece) (scan : LineScan) : LineScan :=
  ⟨pieces ++ scan.pieces, scan.state⟩

end LineScan

namespace Reads

theorem text {t left : List Char} {pieces : List Piece} (h : Reads lexicon t pieces left) :
    pieces.flatMap Piece.text ++ left = t := by
  induction h with
  | done text => rfl
  | step first later ih => rw [List.flatMap_cons, List.append_assoc, ih, first.text]

theorem scanText {t left : List Char} {pieces : List Piece} (h : Reads lexicon t pieces left) :
    scanText lexicon t = (scanText lexicon left).behind pieces := by
  induction h with
  | done text => rfl
  | step first later ih =>
    rw [first.scanText, ih]
    rfl

theorem append {t middle left : List Char} {a b : List Piece} (ha : Reads lexicon t a middle)
    (hb : Reads lexicon middle b left) : Reads lexicon t (a ++ b) left := by
  induction ha with
  | done text => exact hb
  | step first later ih => exact .step first (ih hb)

/-- The marked pieces of a reading are not empty. -/
theorem text_ne_nil {t left : List Char} {pieces : List Piece} (h : Reads lexicon t pieces left)
    {piece : Piece} (hp : piece ∈ pieces) : piece.text ≠ [] := by
  induction h with
  | done text => simp at hp
  | step first later ih =>
    rcases List.mem_cons.mp hp with rfl | hp
    · exact first.text_ne_nil
    · exact ih hp

end Reads

/-- Every text can be read up to its end or to a comment that nothing closes. -/
theorem exists_reads (lexicon : Lexicon) (text : List Char) :
    ∃ pieces left, Reads lexicon text pieces left ∧ (left = [] ∨ Unclosed lexicon left) := by
  induction hn : text.length using Nat.strongRecOn generalizing text with
  | ind n ih =>
    subst hn
    rcases step_cases lexicon text with h | h | ⟨piece, rest, h⟩
    · exact ⟨[], text, .done text, .inl h⟩
    · exact ⟨[], text, .done text, .inr h⟩
    · obtain ⟨pieces, left, hr, hl⟩ := ih _ h.length_lt rest rfl
      exact ⟨piece :: pieces, left, .step h hr, hl⟩

end Graft.Scan
