import Graft.Scan.Classification

/-! # Scanning a text in one pass

The same vocabulary read without cutting the text into lines: a line comment runs up to the
next newline, a block comment through the next closing marker wherever that is, and a quote
opens a literal only if it occurs again before the next newline.
-/
namespace Graft.Scan
open Graft.Text

/-- What is left of the current line, and what follows it. -/
def cutLine (text : List Char) : List Char × List Char :=
  (text.takeWhile (· ≠ '\n'), text.dropWhile (· ≠ '\n'))

theorem cutLine_append (text : List Char) : (cutLine text).1 ++ (cutLine text).2 = text :=
  List.takeWhile_append_dropWhile

/-- Scans a text from a position in code. -/
def scanText (lexicon : Lexicon) (text : List Char) : LineScan :=
  match text with
  | [] => ⟨[], .code⟩
  | c :: rest =>
    if _hc : c = '\n' then
      (scanText lexicon rest).push (.code c)
    else if lexicon.opensLineComment (cutLine (c :: rest)).1 then
      (scanText lexicon (cutLine (c :: rest)).2).push
        (.marked .lineComment (cutLine (c :: rest)).1)
    else if _ho : lexicon.opensBlock (cutLine (c :: rest)).1 then
      match _h : lexicon.takeBlock (c :: rest) with
      | none => ⟨[.marked .blockComment (c :: rest)], .inBlockComment⟩
      | some (block, left) => (scanText lexicon left).push (.marked .blockComment block)
    else
      match _h : lexicon.takeLiteral c (cutLine rest).1 with
      | none => (scanText lexicon rest).push (.code c)
      | some (kind, literal, left) =>
        (scanText lexicon (left ++ (cutLine rest).2)).push (.marked kind literal)
  termination_by text.length
  decreasing_by
    · exact Nat.lt_succ_self _
    · have : (rest.dropWhile (· ≠ '\n')).length ≤ rest.length :=
        (List.dropWhile_suffix _).length_le
      simpa [cutLine, List.dropWhile_cons, _hc] using Nat.lt_succ_of_le this
    · refine Lexicon.length_lt_of_takeBlock ?_ _h
      simp only [Lexicon.opensBlock, Bool.and_eq_true] at _ho ⊢
      refine ⟨_ho.1, ?_⟩
      rw [List.isPrefixOf_iff_prefix] at _ho ⊢
      exact _ho.2.trans (List.takeWhile_prefix _)
    · exact Nat.lt_succ_self _
    · have hl := Lexicon.length_lt_of_takeLiteral _h
      have hr : (cutLine rest).1.length + (cutLine rest).2.length = rest.length := by
        rw [← List.length_append, cutLine_append]
      simp only [List.length_append, List.length_cons] at hl ⊢
      omega

/-- Classifies a text, read in one pass. -/
def Classification.ofWhole (lexicon : Lexicon) (text : String) : Classification :=
  let scan := scanText lexicon text.toList
  ⟨segmentsFrom 0 scan.pieces, scan.state.carriedOver⟩

end Graft.Scan
