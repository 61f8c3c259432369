import Graft.Proofs.Scan.Lines
import Graft.Proofs.Scan.Reading

/-! # Line by line and in one pass

Reading a text line by line, with the open block comment carried from line to line, finds the
comments and literals that one pass over the whole text finds.  The closing marker must be
there and lie on one line: otherwise no line can close what a line before it has opened.
-/
namespace Graft.Scan
open Graft.Text
variable {lexicon : Lexicon}

/-- The scan of what is left of a text, from the state that a line leaves behind. -/
def scanRest (lexicon : Lexicon) (before : ScanState) (text : List Char) : LineScan :=
  match before.carriedOver with
  | .inBlockComment =>
    match takeThrough lexicon.blockClose.toList text with
    | none => ⟨[.marked .blockComment text], .inBlockComment⟩
    | some (block, left) => (scanText lexicon left).push (.marked .blockComment block)
  | _ => scanText lexicon text

/-- A line that opens a block comment with its first characters and does not close it. -/
structure LeftOpen (lexicon : Lexicon) (line : List Char) : Prop where
  ne_nil : line ≠ []
  notMem : '\n' ∉ line
  lineComment : lexicon.opensLineComment line = false
  block : lexicon.opensBlock line = true
  close : lexicon.takeBlock line = none

theorem LeftOpen.unclosed {line : List Char} (h : LeftOpen lexicon line) :
    Unclosed lexicon line := by
  obtain ⟨c, rest, rfl⟩ := List.exists_cons_of_ne_nil h.ne_nil
  rw [← List.append_nil (c :: rest)]
  exact .intro h.notMem (.inl rfl) h.lineComment h.block (by simpa using h.close)

/-- The scan of a line reads it in the text, up to its end or to a comment that it leaves
open. -/
inductive LineRead (lexicon : Lexicon) (line tail : List Char) (scan : LineScan) : Prop
  | closed (hs : scan.state ≠ .inBlockComment)
      (hr : Reads lexicon (line ++ tail) scan.pieces tail)
  | unclosed {pieces : List Piece} {text : List Char}
      (hs : scan = ⟨pieces ++ [.marked .blockComment text], .inBlockComment⟩)
      (hr : Reads lexicon (line ++ tail) pieces (text ++ tail)) (ho : LeftOpen lexicon text)

theorem LineRead.push {line rest tail : List Char} {piece : Piece} {scan : LineScan}
    (h : LineRead lexicon rest tail scan) (hp : Step lexicon (line ++ tail) piece (rest ++ tail)) :
    LineRead lexicon line tail (scan.push piece) := by
  cases h with
  | closed hs hr => exact .closed hs (.step hp hr)
  | unclosed hs hr ho =>
    subst hs
    exact .unclosed rfl (.step hp hr) ho

theorem lineRead_scanCode (hc : lexicon.blockClose ≠ "") {line tail : List Char}
    (hn : '\n' ∉ line) (ht : LineEnd tail) :
    LineRead lexicon line tail (scanCode lexicon line) := by
  fun_induction scanCode lexicon line with
  | case1 => exact .closed (by simp) (.done tail)
  | case2 c rest hl => exact .closed (by simp) (.step (.lineComment hn ht hl) (.done tail))
  | case3 c rest hl ho hb =>
    exact .unclosed rfl (.done _) ⟨List.cons_ne_nil c rest, hn, by simpa using hl, ho, hb⟩
  | case4 c rest hl ho block left hb ih =>
    have hs : block ++ left = c :: rest := Lexicon.takeBlock_append ho hb
    have hm : '\n' ∉ left := fun h => hn (by simp [← hs, h])
    have hb' : lexicon.takeBlock (c :: rest ++ tail) = some (block, left ++ tail) := by
      rw [← hs, List.append_assoc, Lexicon.takeBlock_taken hc hb]
    exact (ih hm).push (.block hn ht (by simpa using hl) ho hb')
  | case5 c rest hl ho hq ih =>
    have hm : '\n' ∉ rest := fun h => hn (by simp [h])
    exact (ih hm).push (.code hn ht (by simpa using hl) (by simpa using ho) hq)
  | case6 c rest hl ho kind literal left hq ih =>
    have hs : literal ++ left = c :: rest := Lexicon.takeLiteral_append hq
    have hm : '\n' ∉ left := fun h => hn (by simp [← hs, h])
    exact (ih hm).push (.literal hn ht (by simpa using hl) (by simpa using ho) hq)

theorem LineEnd.append_newline {tail : List Char} (h : LineEnd tail) (more : List Char) :
    LineEnd (tail ++ '\n' :: more) := by
  rcases h with rfl | ⟨rest, rfl⟩
  · exact .inr ⟨more, rfl⟩
  · exact .inr ⟨rest ++ '\n' :: more, rfl⟩

/-- What a text leaves open is closed, if at all, behind a newline that follows it. -/
theorem Unclosed.scanText_append_newline (hc : lexicon.blockClose ≠ "")
    (hcn : '\n' ∉ lexicon.blockClose.toList) {text : List Char} (h : Unclosed lexicon text)
    (more : List Char) :
    Scan.scanText lexicon (text ++ '\n' :: more) =
      LineScan.followedBy ⟨[.marked .blockComment text], .inBlockComment⟩
        (scanRest lexicon .inBlockComment more) := by
  cases h with
  | @intro c line tail hn ht hl ho hb =>
    have ho' := Lexicon.opensBlock_mono (List.prefix_append _ tail) ho
    have hb' := Lexicon.takeBlock_append_newline hc hcn ho' hb more
    have ht' := ht.append_newline more
    rw [List.append_assoc] at hb' ⊢
    simp only [scanRest, ScanState.carriedOver]
    cases hm : takeThrough lexicon.blockClose.toList more with
    | none =>
      rw [hm] at hb'
      rw [(Unclosed.intro hn ht' hl ho hb').scanText, ← List.append_assoc]
      exact (LineScan.followedBy_open [] [] _ _ _ _ _).symm
    | some found =>
      rw [hm] at hb'
      rw [(Step.block hn ht' hl ho hb').scanText]
      exact (LineScan.followedBy_open [] _ _ _ _ _ _).symm

theorem followedBy_behind (pieces : List Piece) (text : List Char) (next : LineScan) :
    LineScan.followedBy ⟨pieces ++ [.marked .blockComment text], .inBlockComment⟩ next =
      (LineScan.followedBy ⟨[.marked .blockComment text], .inBlockComment⟩ next).behind pieces := by
  induction pieces with
  | nil => rfl
  | cons piece pieces ih =>
    change (LineScan.push piece ⟨pieces ++ [.marked .blockComment text], _⟩).followedBy next = _
    rw [LineScan.push_followedBy (fun _ => ⟨pieces, text, rfl⟩), ih]
    rfl

theorem scanRest_of_ne {before : ScanState} (h : before ≠ .inBlockComment) (text : List Char) :
    scanRest lexicon before text = scanText lexicon text := by
  cases before <;> first | contradiction | rfl

section Lines
variable (hc : lexicon.blockClose ≠ "") (hcn : '\n' ∉ lexicon.blockClose.toList)
include hc hcn

theorem scanText_append_newline {line : List Char} (hn : '\n' ∉ line) (more : List Char) :
    scanText lexicon (line ++ '\n' :: more) =
      (scanCode lexicon line).followedBy
        (scanRest lexicon (scanCode lexicon line).state more) := by
  cases lineRead_scanCode hc hn (.inr ⟨more, rfl⟩) with
  | closed hs hr =>
    rw [LineScan.followedBy_of_ne hs, scanRest_of_ne hs, hr.scanText, (Step.newline more).scanText]
    rfl
  | unclosed hs hr ho =>
    rw [hs, followedBy_behind, hr.scanText, ho.unclosed.scanText_append_newline hc hcn]

/-- A line in a text, from the state in which it starts. -/
theorem scanRest_append_newline (before : ScanState) {line : List Char} (hn : '\n' ∉ line)
    (more : List Char) :
    scanRest lexicon before (line ++ '\n' :: more) =
      (scanLine lexicon before line).followedBy
        (scanRest lexicon (scanLine lexicon before line).state more) := by
  by_cases hb : before = .inBlockComment
  · subst hb
    simp only [scanRest, scanLine, scanBlock, ScanState.carriedOver]
    cases ht : takeThrough lexicon.blockClose.toList line with
    | none =>
      rw [takeThrough_append_newline (Lexicon.toList_ne_nil hc) hcn ht]
      cases takeThrough lexicon.blockClose.toList more <;> rfl
    | some found =>
      obtain ⟨block, left⟩ := found
      have hm : '\n' ∉ left := fun h => hn (by simp [← takeThrough_append ht, h])
      rw [takeThrough_append_right (Lexicon.toList_ne_nil hc) ht]
      dsimp only
      rw [LineScan.push_followedBy (endsOpen_scanCode lexicon left),
        scanText_append_newline hc hcn hm]
      rfl
  · rw [scanRest_of_ne hb, scanText_append_newline hc hcn hn]
    cases before <;> first | contradiction | rfl

omit hcn in
theorem carried_scanText {line : List Char} (hn : '\n' ∉ line) :
    (scanText lexicon line).carried = (scanCode lexicon line).carried := by
  cases lineRead_scanCode hc hn (.inl rfl) with
  | closed hs hr =>
    rw [List.append_nil] at hr
    have he : (scanCode lexicon line).state.carriedOver = .code := by
      cases h : (scanCode lexicon line).state <;> first | contradiction | rfl
    rw [hr.scanText, scanText]
    simp only [LineScan.carried, LineScan.behind, he, List.append_nil]
    rfl
  | unclosed hs hr ho =>
    rw [List.append_nil, List.append_nil] at hr
    rw [hs, hr.scanText, ho.unclosed.scanText]
    rfl

omit hcn in
/-- The last line of a text. -/
theorem carried_scanRest (before : ScanState) {line : List Char} (hn : '\n' ∉ line) :
    (scanRest lexicon before line).carried = (scanLine lexicon before line).carried := by
  by_cases hb : before = .inBlockComment
  · subst hb
    simp only [scanRest, scanLine, scanBlock, ScanState.carriedOver]
    cases ht : takeThrough lexicon.blockClose.toList line with
    | none => rfl
    | some found =>
      obtain ⟨block, left⟩ := found
      have hm : '\n' ∉ left := fun h => hn (by simp [← takeThrough_append ht, h])
      have hs := carried_scanText hc hm
      simp only [LineScan.carried, LineScan.mk.injEq] at hs ⊢
      simp [hs]
  · rw [scanRest_of_ne hb, carried_scanText hc hn]
    cases before <;> first | contradiction | rfl

/-- What is left of a text is the lines that are left of it. -/
theorem carried_scanRest_intercalate (before : ScanState) (line : List Char)
    (rest : List (List Char)) (hn : ∀ l ∈ line :: rest, '\n' ∉ l) :
    (scanRest lexicon before (['\n'].intercalate (line :: rest))).carried =
      (scanLines lexicon before (line :: rest)).carried := by
  induction rest generalizing before line with
  | nil =>
    rw [List.intercalate_singleton, scanLines]
    exact carried_scanRest hc before (hn line (by simp))
  | cons next rest ih =>
    rw [List.intercalate_cons_cons, List.append_assoc, List.singleton_append,
      scanRest_append_newline hc hcn before (hn line (by simp)), LineScan.carried_followedBy,
      ih _ _ (fun l hl => hn l (List.mem_cons_of_mem line hl)), scanLines,
      LineScan.carried_followedBy]

theorem carried_scanLines_lines (before : ScanState) (text : List Char) :
    (scanLines lexicon before (lines text)).carried = (scanRest lexicon before text).carried := by
  obtain ⟨line, rest, hl⟩ := List.exists_cons_of_ne_nil (lines_ne_nil text)
  have hs := carried_scanRest_intercalate hc hcn before line rest
    (by rw [← hl]; exact fun l => notMem_of_mem_lines)
  rw [← hl, intercalate_lines] at hs
  exact hs.symm

theorem segments_of (text : String) :
    (Classification.of lexicon text).segments =
      segmentsFrom 0 (scanText lexicon text.toList).pieces := by
  rw [Classification.of, ofLines_lines]
  exact congrArg (fun scan => segmentsFrom 0 scan.pieces)
    (carried_scanLines_lines hc hcn .code text.toList)

theorem endState_of (text : String) :
    (Classification.of lexicon text).endState =
      (scanText lexicon text.toList).state.carriedOver := by
  rw [Classification.of, ofLines_lines]
  exact congrArg LineScan.state (carried_scanLines_lines hc hcn .code text.toList)

end Lines

/-- Reading a text line by line, with the open comment carried from line to line and its
parts joined, finds what one pass over the whole text finds. -/
theorem of_eq_ofWhole (hc : lexicon.blockClose ≠ "") (hcn : '\n' ∉ lexicon.blockClose.toList)
    (text : String) : Classification.of lexicon text = Classification.ofWhole lexicon text := by
  have hseg := segments_of hc hcn text
  have hend := endState_of hc hcn text
  generalize Classification.of lexicon text = c at hseg hend
  obtain ⟨segments, endState⟩ := c
  simp only at hseg hend
  rw [hseg, hend]
  rfl

/-- A comment over an empty line, and one that opens on the line on which it closes. -/
theorem of_eq_ofWhole_reopened :
    ({} : Lexicon).blockClose ≠ "" ∧ '\n' ∉ ({} : Lexicon).blockClose.toList ∧
      Classification.of {} "a /* b\n\nc */ /* d\n*/ 'e' // f" =
        ⟨[⟨.blockComment, 2, 12⟩, ⟨.blockComment, 13, 20⟩, ⟨.charLiteral, 21, 24⟩,
          ⟨.lineComment, 25, 29⟩], .code⟩ :=
  ⟨by decide, by decide, (of_eq_ofWhole (by decide) (by decide) _).trans (by decide +kernel)⟩

end Graft.Scan
