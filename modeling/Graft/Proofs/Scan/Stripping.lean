import Graft.Proofs.Scan.Carried

/-! # Stripping and classifying

The stripper reads its lines one by one and the classifier joins what it finds on them into
segments of the whole text.  They agree: stripping keeps of each line the bytes that lie in no
comment segment, and leaves out exactly the lines that a block comment covers from a line
before to a line behind, or to the open end of the text.
-/
namespace Graft.Scan
open Graft.Text
variable {lexicon : Lexicon}

/-! ## One line of the text -/

/-- Whether a block comment covers a line: it starts before the line and ends behind it, or ends
with it at the end of the text and is open there. -/
def Classification.coversLine (c : Classification) (size : Nat) (line : Span) : Bool :=
  c.segments.any fun s => s.kind = .blockComment && s.span.start < line.start &&
    (line.stop < s.span.stop ||
      s.span.stop = line.stop && line.stop = size && c.endState = .inBlockComment)

theorem Progress.Ahead.foldl {p : Progress} (h : Ahead p) (lines : List (List Char)) :
    Ahead (lines.foldl (Progress.addLine lexicon) p) := by
  induction lines generalizing p with
  | nil => exact h
  | cons line rest ih => exact ih (h.addLine line)

section
variable (done : List (List Char)) (line : List Char) (rest : List (List Char))

/-- The text up to the end of a line, and with the lines behind it. -/
theorem offset_foldl_addLine :
    (done.foldl (Progress.addLine lexicon) .start).offset +
        byteLength (['\n'].intercalate (line :: rest)) =
      byteLength (['\n'].intercalate (done ++ line :: rest)) := by
  obtain ⟨first, tail, he⟩ := List.exists_cons_of_ne_nil
    (show done ++ line :: rest ≠ [] by simp)
  have hall := foldl_addLine lexicon .start first tail
  rw [← he, List.foldl_append, foldl_addLine] at hall
  have hoffset := congrArg Progress.offset hall
  simp only [Progress.start] at hoffset ⊢
  omega

theorem segments_ofLines :
    (Classification.ofLines lexicon (done ++ line :: rest)).segments =
      (done.foldl (Progress.addLine lexicon) .start).joined
        (segmentsFrom (done.foldl (Progress.addLine lexicon) .start).offset
          (scanLines lexicon (done.foldl (Progress.addLine lexicon) .start).state
            (line :: rest)).pieces) := by
  rw [Classification.ofLines, List.foldl_append, foldl_addLine]

theorem endState_ofLines :
    (Classification.ofLines lexicon (done ++ line :: rest)).endState =
      (scanLines lexicon (done.foldl (Progress.addLine lexicon) .start).state
        (line :: rest)).state.carriedOver := by
  rw [Classification.ofLines, List.foldl_append, foldl_addLine]

/-- The classifier covers a line exactly when the stripper takes it for an interior one. -/
theorem coversLine_ofLines :
    (Classification.ofLines lexicon (done ++ line :: rest)).coversLine
        (byteLength (['\n'].intercalate (done ++ line :: rest)))
        ⟨(done.foldl (Progress.addLine lexicon) .start).offset,
          (done.foldl (Progress.addLine lexicon) .start).offset + byteLength line⟩ =
      isInterior lexicon (done.foldl (Progress.addLine lexicon) .start).state line := by
  rw [← @offset_foldl_addLine lexicon done line rest, Bool.eq_iff_iff]
  unfold Classification.coversLine
  rw [segments_ofLines, endState_ofLines]
  have hp : (done.foldl (Progress.addLine lexicon) .start).Ahead := Progress.ahead_start.foldl done
  generalize done.foldl (Progress.addLine lexicon) .start = p at hp ⊢
  have hend : (p.offset + byteLength line =
      p.offset + byteLength (['\n'].intercalate (line :: rest))) ↔ rest = [] := by
    cases rest with
    | nil => simp
    | cons next rest =>
      have := Char.utf8Size_pos '\n'
      simp [List.intercalate_cons_cons]
      omega
  have hfirst : p.state = .inBlockComment → ∃ stop later,
      segmentsFrom p.offset (scanLines lexicon p.state (line :: rest)).pieces =
        ⟨.blockComment, p.offset, stop⟩ :: later :=
    fun ho => exists_segmentsFrom_of_open ho p.offset line rest
  have hjoined := Progress.exists_mem_joined_iff hp hfirst
    (fun s hs => (le_of_mem_segmentsFrom hs).1)
    (fun stop => p.offset + byteLength line < stop ∨ stop = p.offset + byteLength line ∧
      rest = [] ∧ (scanLines lexicon p.state (line :: rest)).state = .inBlockComment)
    (fun stop h => by omega)
  simp only [List.any_eq_true, Bool.and_eq_true, Bool.or_eq_true, decide_eq_true_eq, hend,
    carriedOver_eq_inBlockComment_iff, and_assoc]
  rw [hjoined]
  constructor
  · rintro ⟨ho, stop, later, hs, hr⟩
    exact (reaches_iff_isInterior ho hs).mp hr
  · intro hi
    have ho : p.state = .inBlockComment := by
      simp only [isInterior, Bool.and_eq_true, decide_eq_true_eq] at hi
      exact carriedOver_eq_inBlockComment_iff.mp hi.1
    obtain ⟨stop, later, hs⟩ := hfirst ho
    exact ⟨ho, stop, later, hs, (reaches_iff_isInterior ho hs).mpr hi⟩

/-- Outside comments stand the bytes that the stripper keeps of a line. -/
theorem uncommented_ofLines :
    uncommented (Classification.ofLines lexicon (done ++ line :: rest)).segments
        (done.foldl (Progress.addLine lexicon) .start).offset (utf8 line) =
      utf8 ((scanLine lexicon (done.foldl (Progress.addLine lexicon) .start).state
        line).pieces.flatMap Piece.kept) := by
  have hp : (done.foldl (Progress.addLine lexicon) .start).Ahead := Progress.ahead_start.foldl done
  rw [segments_ofLines]
  generalize done.foldl (Progress.addLine lexicon) .start = p at hp ⊢
  have htext := text_scanLine lexicon p.state line
  unfold LineScan.text at htext
  rw [← uncommented_segmentsFrom p.offset, htext]
  apply uncommented_congr
  intro i hle hlt
  rw [length_utf8] at hlt
  rw [Progress.inComment_joined hp
      (fun ho => exists_segmentsFrom_of_open ho p.offset line rest) hle,
    inComment_scanLines p.state p.offset line rest hlt]

end
/-! ## The stripped text -/

/-- A line and the offset at which it starts in the text that joins the lines. -/
structure PlacedLine where
  start : Nat
  text : String

def PlacedLine.span (line : PlacedLine) : Span :=
  ⟨line.start, line.start + line.text.utf8ByteSize⟩

/-- Lines that are joined by newlines, of which the first starts at an offset. -/
def placeLines (start : Nat) : List String → List PlacedLine
  | [] => []
  | line :: rest => ⟨start, line⟩ :: placeLines (start + line.utf8ByteSize + 1) rest

/-- What stands on a line outside comments, with its newline, unless a comment covers it. -/
def Classification.stripped (c : Classification) (size : Nat) (line : PlacedLine) : List UInt8 :=
  if c.coversLine size line.span then []
  else uncommented c.segments line.start (bytes line.text) ++ bytes "\n"

theorem utf8_stripFrom (done : List (List Char)) (lines : List String) :
    utf8 (stripFrom lexicon (done.foldl (Progress.addLine lexicon) .start).state
        (lines.map String.toList)) =
      (placeLines (done.foldl (Progress.addLine lexicon) .start).offset lines).flatMap
        ((Classification.ofLines lexicon (done ++ lines.map String.toList)).stripped
          (byteLength (['\n'].intercalate (done ++ lines.map String.toList)))) := by
  induction lines generalizing done with
  | nil => rfl
  | cons line rest ih =>
    have hrest := ih (done ++ [line.toList])
    have hnext : (done ++ [line.toList]).foldl (Progress.addLine lexicon) .start =
        (done.foldl (Progress.addLine lexicon) .start).addLine lexicon line.toList := by simp
    rw [hnext, List.append_assoc] at hrest
    have hcovers := @coversLine_ofLines lexicon done line.toList (rest.map String.toList)
    have hkept := @uncommented_ofLines lexicon done line.toList (rest.map String.toList)
    rw [byteLength_toList] at hcovers
    rw [List.map_cons, placeLines, List.flatMap_cons, stripFrom, utf8_append]
    congr 1
    · unfold Classification.stripped PlacedLine.span stripLine
      simp only [hcovers, bytes_eq_utf8, hkept]
      split
      · rfl
      · simp
    · simpa [Progress.addLine] using hrest

theorem notMem_kept {c : Char} {pieces : List Piece} (h : c ∉ pieces.flatMap Piece.text) :
    c ∉ pieces.flatMap Piece.kept := by
  intro hm
  obtain ⟨piece, hp, hk⟩ := List.mem_flatMap.mp hm
  unfold Piece.kept at hk
  split at hk
  · cases hk
  · exact h (List.mem_flatMap.mpr ⟨piece, hp, hk⟩)

/-- A line gives one newline, or none when it is left out. -/
theorem count_stripLine (before : ScanState) {line : List Char} (hn : '\n' ∉ line) :
    (stripLine lexicon before line).count '\n' =
      if isInterior lexicon before line then 0 else 1 := by
  have htext := text_scanLine lexicon before line
  unfold LineScan.text at htext
  have hkept := notMem_kept (htext ▸ hn)
  unfold stripLine
  split
  · rfl
  · rw [List.count_append, List.count_eq_zero.mpr hkept]
    rfl

theorem count_stripFrom (done : List (List Char)) {lines : List String}
    (hn : ∀ line ∈ lines, '\n' ∉ line.toList) :
    (stripFrom lexicon (done.foldl (Progress.addLine lexicon) .start).state
        (lines.map String.toList)).count '\n' +
      (placeLines (done.foldl (Progress.addLine lexicon) .start).offset lines).countP
        (fun line => (Classification.ofLines lexicon (done ++ lines.map String.toList)).coversLine
          (byteLength (['\n'].intercalate (done ++ lines.map String.toList))) line.span) =
      lines.length := by
  induction lines generalizing done with
  | nil => rfl
  | cons line rest ih =>
    obtain ⟨hline, hrest⟩ := List.forall_mem_cons.mp hn
    have hcount := ih (done ++ [line.toList]) hrest
    have hnext : (done ++ [line.toList]).foldl (Progress.addLine lexicon) .start =
        (done.foldl (Progress.addLine lexicon) .start).addLine lexicon line.toList := by simp
    rw [hnext, List.append_assoc] at hcount
    simp only [Progress.addLine, byteLength_toList, List.singleton_append,
      PlacedLine.span] at hcount
    have hcovers := @coversLine_ofLines lexicon done line.toList (rest.map String.toList)
    rw [byteLength_toList] at hcovers
    rw [List.map_cons, placeLines, List.countP_cons, stripFrom, List.count_append,
      count_stripLine _ hline, List.length_cons]
    simp only [PlacedLine.span, hcovers]
    split <;> omega

/-- A line that a block comment covers holds nothing but comment. -/
theorem uncommented_of_coversLine {c : Classification} {size : Nat} {line : PlacedLine}
    (h : c.coversLine size line.span = true) :
    uncommented c.segments line.start (bytes line.text) = [] := by
  obtain ⟨s, hs, hc⟩ := List.any_eq_true.mp h
  simp only [Bool.and_eq_true, Bool.or_eq_true, decide_eq_true_eq] at hc
  simp only [PlacedLine.span] at hc
  obtain ⟨⟨hkind, hstart⟩, hstop⟩ := hc
  apply uncommented_eq_nil
  intro i hle hlt
  rw [bytes_eq_utf8, length_utf8, byteLength_toList] at hlt
  refine List.any_eq_true.mpr ⟨s, hs, ?_⟩
  rw [Bool.and_eq_true, Span.contains_iff, hkind]
  exact ⟨rfl, by omega, by omega⟩

theorem of_intercalate {lines : List String} (hn : ∀ line ∈ lines, '\n' ∉ line.toList)
    (hne : lines ≠ []) : Classification.of lexicon ("\n".intercalate lines) =
      .ofLines lexicon (lines.map String.toList) := by
  have hlines : ∀ line ∈ lines.map String.toList, '\n' ∉ line := by simpa using hn
  rw [Classification.of, String.toList_intercalate]
  exact congrArg (Classification.ofLines lexicon) (lines_intercalate hlines (by simpa using hne))

theorem strip_eq_uncommented_lines (lexicon : Lexicon) {lines : List String}
    (hn : ∀ line ∈ lines, '\n' ∉ line.toList) :
    let text := "\n".intercalate lines
    let c := Classification.of lexicon text
    bytes (strip lexicon lines) =
        (placeLines 0 lines).flatMap (c.stripped text.utf8ByteSize) ∧
      (strip lexicon lines).toList.count '\n' +
          (placeLines 0 lines).countP (fun line => c.coversLine text.utf8ByteSize line.span) =
        lines.length ∧
      ∀ line ∈ placeLines 0 lines, c.coversLine text.utf8ByteSize line.span = true →
        uncommented c.segments line.start (bytes line.text) = [] := by
  intro text c
  have hbytes := @utf8_stripFrom lexicon [] lines
  have hcount := @count_stripFrom lexicon [] lines hn
  by_cases hne : lines = []
  · subst hne
    exact ⟨rfl, rfl, fun line _ h => uncommented_of_coversLine h⟩
  · have hc : c = .ofLines lexicon (lines.map String.toList) := of_intercalate hn hne
    have hsize : text.utf8ByteSize = byteLength (['\n'].intercalate (lines.map String.toList)) := by
      rw [← byteLength_toList, String.toList_intercalate]
      rfl
    refine ⟨?_, ?_, fun line _ h => uncommented_of_coversLine h⟩
    · rw [hc, hsize, strip, bytes_ofList]
      exact hbytes
    · rw [hc, hsize, strip, String.toList_ofList]
      exact hcount

/-- A comment over an empty line, closed in the middle of the next. -/
theorem strip_eq_uncommented_lines_block :
    (∀ line ∈ ["a /* b", "", "c */ d"], '\n' ∉ line.toList) ∧
      bytes (strip {} ["a /* b", "", "c */ d"]) = bytes "a \n d\n" ∧
      (strip {} ["a /* b", "", "c */ d"]).toList.count '\n' = 2 := by
  have hn : ∀ line ∈ ["a /* b", "", "c */ d"], '\n' ∉ line.toList := by simp
  obtain ⟨hb, hc, _⟩ := strip_eq_uncommented_lines {} hn
  refine ⟨hn, hb.trans (by decide +kernel), ?_⟩
  have hone : (placeLines 0 ["a /* b", "", "c */ d"]).countP (fun line =>
      (Classification.of {} ("\n".intercalate ["a /* b", "", "c */ d"])).coversLine
        ("\n".intercalate ["a /* b", "", "c */ d"]).utf8ByteSize line.span) = 1 := by
    decide +kernel
  rw [hone] at hc
  exact Nat.succ.inj hc

end Graft.Scan
