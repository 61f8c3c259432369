import Graft.Injection
import Graft.Config.Validation
import Graft.Proofs.Scan.Lines
import Graft.Proofs.Scan.Marker

/-! # The block comments of a valid lexicon

The scanner tries the marker of a line comment first.  So a valid lexicon recognises a block
comment of its own unless the text of that comment starts with the line comment marker; then
all of it is a line comment.  Validation refuses the two markers only when they are equal.
-/
namespace Graft.Config
open Scan Text

theorem ne_empty_of_requireText {field value : String} (h : requireText field value = []) :
    value ≠ "" := by
  rintro rfl
  simp [requireText, allBlank] at h

theorem blockMarkers_ne_empty {c : Config} (h : c.validate = .ok ()) :
    c.lexicon.blockOpen ≠ "" ∧ c.lexicon.blockClose ≠ "" := by
  have hi := validate_eq_ok_iff.mp h
  simp only [issues, List.append_eq_nil_iff, and_assoc] at hi
  obtain ⟨-, -, -, -, -, ho, hc, -⟩ := hi
  exact ⟨ne_empty_of_requireText ho, ne_empty_of_requireText hc⟩

theorem classify_line (c : Config) {text : String} (hn : '\n' ∉ text.toList) :
    c.classify text = ⟨segmentsFrom 0 (scanCode c.lexicon text.toList).pieces,
      (scanCode c.lexicon text.toList).state.carriedOver⟩ := by
  have hl : lines text.toList = [text.toList] := by
    have h := @lines_intercalate [text.toList] (by simpa using hn) (by simp)
    rwa [List.intercalate_singleton] at h
  rw [classify, Classification.of, ofLines_lines, hl, scanLines]
  rfl

/-- A block comment that closes with its text is read as one comment: as a line comment if it
starts with the marker of one. -/
theorem scanCode_blockComment {lexicon : Scan.Lexicon} {text body : List Char}
    (ho : lexicon.blockOpen ≠ "") (hc : lexicon.blockClose ≠ "")
    (ht : text = lexicon.blockOpen.toList ++ (body ++ lexicon.blockClose.toList))
    (hfirst : firstPlace? lexicon.blockClose.toList (body ++ lexicon.blockClose.toList) =
      some (byteLength body)) :
    scanCode lexicon text =
      if lexicon.opensLineComment text then ⟨[.marked .lineComment text], .inLineComment⟩
      else ⟨[.marked .blockComment text], .code⟩ := by
  have hopen : lexicon.opensBlock text = true := by
    simp [ht, Lexicon.opensBlock, Lexicon.hasBlocks, ho]
  have htake : lexicon.takeBlock text = some (text, []) := by
    have h := @takeThrough_of_firstPlace? _ body [] (Lexicon.toList_ne_nil hc)
      (by simpa using hfirst)
    rw [List.append_nil] at h
    simp [ht, Lexicon.takeBlock, h]
  have hne : text ≠ [] := by simp [ht, ho]
  obtain ⟨first, rest, rfl⟩ := List.exists_cons_of_ne_nil hne
  cases hl : lexicon.opensLineComment (first :: rest) with
  | true => exact scanCode_lineComment hl
  | false =>
    rw [scanCode_block hl hopen htake, scanCode]
    rfl

theorem classify_blockComment_eq_iff {c : Config} (hv : c.validate = .ok ())
    (hon : '\n' ∉ c.lexicon.blockOpen.toList) (hcn : '\n' ∉ c.lexicon.blockClose.toList)
    {body : String} (hbn : '\n' ∉ body.toList)
    (hfirst : firstPlace? c.lexicon.blockClose.toList (body ++ c.lexicon.blockClose).toList =
      some body.utf8ByteSize) :
    let text := c.lexicon.blockOpen ++ body ++ c.lexicon.blockClose
    c.classify text = ⟨[⟨.blockComment, 0, text.utf8ByteSize⟩], .code⟩ ↔
      ¬ c.lexicon.lineComment.toList <+: text.toList := by
  obtain ⟨ho, hc⟩ := blockMarkers_ne_empty hv
  intro text
  have hn : '\n' ∉ text.toList := by simp [text, hon, hbn, hcn]
  have hscan := @scanCode_blockComment c.lexicon text.toList body.toList ho hc
    (by simp [text]) (by simpa using hfirst)
  have hopens : c.lexicon.lineComment.toList <+: text.toList ↔
      c.lexicon.opensLineComment text.toList = true :=
    List.isPrefixOf_iff_prefix.symm
  rw [classify_line c hn, hscan, hopens]
  split
  · next h => simp [segmentsFrom, h]
  · next h => simp [segmentsFrom, h, ScanState.carriedOver]

/-- The built-in lexicon, and a body that nearly closes and nearly opens a comment. -/
theorem classify_blockComment_eq_stars :
    ({} : Config).validate = .ok () ∧ '\n' ∉ ({} : Config).lexicon.blockOpen.toList ∧
      '\n' ∉ ({} : Config).lexicon.blockClose.toList ∧ '\n' ∉ "* / // /*".toList ∧
      firstPlace? ({} : Config).lexicon.blockClose.toList
        ("* / // /*" ++ ({} : Config).lexicon.blockClose).toList =
          some ("* / // /*".utf8ByteSize) ∧
      ({} : Config).classify "/** / // /**/" = ⟨[⟨.blockComment, 0, 13⟩], .code⟩ := by
  have hv : ({} : Config).validate = .ok () := validate_eq_ok_iff.mpr (by decide +kernel)
  have hn : '\n' ∉ ({} : Config).lexicon.blockOpen.toList ∧
      '\n' ∉ ({} : Config).lexicon.blockClose.toList ∧ '\n' ∉ "* / // /*".toList := by
    decide +kernel
  have hfirst : firstPlace? ({} : Config).lexicon.blockClose.toList
      ("* / // /*" ++ ({} : Config).lexicon.blockClose).toList =
        some ("* / // /*".utf8ByteSize) := by
    decide +kernel
  refine ⟨hv, hn.1, hn.2.1, hn.2.2, hfirst, ?_⟩
  exact (classify_blockComment_eq_iff hv hn.1 hn.2.1 hn.2.2 hfirst).mpr (by decide +kernel)

/-- Two hyphens start a line comment, two hyphens and two brackets a block comment. -/
def hyphens : Config :=
  { lexicon := { lineComment := "--", blockOpen := "--[[", blockClose := "]]" } }

/-- A valid lexicon that takes its own block comments for line comments. -/
theorem classify_blockComment_ne_hyphens :
    hyphens.validate = .ok () ∧ '\n' ∉ hyphens.lexicon.lineComment.toList ∧
      '\n' ∉ hyphens.lexicon.blockOpen.toList ∧ '\n' ∉ hyphens.lexicon.blockClose.toList ∧
      '\n' ∉ " note ".toList ∧
      firstPlace? hyphens.lexicon.blockClose.toList (" note " ++ hyphens.lexicon.blockClose).toList =
        some (" note ".utf8ByteSize) ∧
      hyphens.classify (hyphens.lexicon.blockOpen ++ " note " ++ hyphens.lexicon.blockClose) ≠
        ⟨[⟨.blockComment, 0, 12⟩], .code⟩ := by
  refine ⟨validate_eq_ok_iff.mpr ?_, ?_, ?_, ?_, ?_, ?_, ?_⟩ <;> decide +kernel

end Graft.Config
