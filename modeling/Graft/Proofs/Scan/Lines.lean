import Graft.Proofs.Text.Line
import Graft.Scan.Classification

/-! # The lines of a text as one scan

The scans of the lines, put together with the newlines between them, cut the whole text into
pieces.  A block comment that is open at the end of a line takes in the newline and the piece
behind it.  The segments of a classification are the marked pieces of this scan
(`ofLines_lines`), so they inherit whatever holds of a list of pieces.
-/
namespace Graft.Scan
open Graft.Text

def Piece.extend (added : List Char) : Piece → Piece
  | .code c => .code c
  | .marked kind text => .marked kind (text ++ added)

/-- The pieces of a line, the last of which goes on with `added`. -/
def extendLast (added : List Char) (pieces : List Piece) : List Piece :=
  pieces.dropLast ++ (pieces.getLast?.map (Piece.extend added)).toList

theorem extendLast_concat (added text : List Char) (pieces : List Piece) (kind : Kind) :
    extendLast added (pieces ++ [.marked kind text]) =
      pieces ++ [.marked kind (text ++ added)] := by
  simp [extendLast, Piece.extend]

theorem extendLast_cons (added : List Char) (piece : Piece) {pieces : List Piece}
    (h : pieces ≠ []) : extendLast added (piece :: pieces) = piece :: extendLast added pieces := by
  obtain ⟨first, rest, rfl⟩ := List.exists_cons_of_ne_nil h
  simp [extendLast, List.getLast?_cons_cons]

namespace LineScan

/-- The scan of a line and of what stands behind its newline. -/
def followedBy (scan next : LineScan) : LineScan :=
  match scan.state, next.pieces with
  | .inBlockComment, .marked _ more :: later =>
    ⟨extendLast ('\n' :: more) scan.pieces ++ later, next.state⟩
  | _, later => ⟨scan.pieces ++ .code '\n' :: later, next.state⟩

/-- The scan stops inside a block comment, which is its last piece. -/
def EndsOpen (scan : LineScan) : Prop :=
  ∃ pieces text, scan = ⟨pieces ++ [.marked .blockComment text], .inBlockComment⟩

@[simp] theorem state_followedBy (scan next : LineScan) :
    (scan.followedBy next).state = next.state := by
  unfold followedBy
  split <;> rfl

theorem followedBy_of_ne {scan : LineScan} (h : scan.state ≠ .inBlockComment) (next : LineScan) :
    scan.followedBy next = ⟨scan.pieces ++ .code '\n' :: next.pieces, next.state⟩ := by
  unfold followedBy
  split
  · contradiction
  · rfl

theorem followedBy_open (pieces later : List Piece) (text more : List Char)
    (kind kind' : Kind) (state : ScanState) :
    followedBy ⟨pieces ++ [.marked kind text], .inBlockComment⟩
        ⟨.marked kind' more :: later, state⟩ =
      ⟨pieces ++ .marked kind (text ++ '\n' :: more) :: later, state⟩ := by
  simp [followedBy, extendLast_concat]

theorem push_followedBy {scan : LineScan} (h : scan.state = .inBlockComment → scan.EndsOpen)
    (piece : Piece) (next : LineScan) :
    (scan.push piece).followedBy next = (scan.followedBy next).push piece := by
  by_cases hs : scan.state = .inBlockComment
  · obtain ⟨pieces, text, rfl⟩ := h hs
    unfold followedBy
    cases next.pieces with
    | nil => rfl
    | cons first later =>
      cases first with
      | code c => rfl
      | marked kind more => simp [push, extendLast_cons]
  · rw [followedBy_of_ne hs, followedBy_of_ne (by simpa using hs)]
    rfl

/-- The scan as far as the next line is concerned. -/
def carried (scan : LineScan) : LineScan :=
  ⟨scan.pieces, scan.state.carriedOver⟩

theorem carried_followedBy (scan next : LineScan) :
    (scan.followedBy next).carried = scan.followedBy next.carried := by
  unfold followedBy carried
  split <;> simp_all

theorem EndsOpen.push {scan : LineScan} (h : scan.EndsOpen) (piece : Piece) :
    (scan.push piece).EndsOpen := by
  obtain ⟨pieces, text, rfl⟩ := h
  exact ⟨piece :: pieces, text, rfl⟩

end LineScan

variable (lexicon : Lexicon)

/-- The scan of lines that are joined by newlines. -/
def scanLines (before : ScanState) : List (List Char) → LineScan
  | [] => ⟨[], before.carriedOver⟩
  | [line] => scanLine lexicon before line
  | line :: next :: rest =>
    let scan := scanLine lexicon before line
    scan.followedBy (scanLines scan.state (next :: rest))

theorem endsOpen_scanCode (line : List Char)
    (h : (scanCode lexicon line).state = .inBlockComment) :
    (scanCode lexicon line).EndsOpen := by
  fun_induction scanCode lexicon line with
  | case1 => cases h
  | case2 => cases h
  | case3 c rest => exact ⟨[], c :: rest, rfl⟩
  | case4 c rest _ _ block left _ ih => exact (ih h).push _
  | case5 c rest _ _ _ ih => exact (ih h).push _
  | case6 c rest _ _ kind literal left _ ih => exact (ih h).push _

theorem endsOpen_scanLine (before : ScanState) (line : List Char)
    (h : (scanLine lexicon before line).state = .inBlockComment) :
    (scanLine lexicon before line).EndsOpen := by
  unfold scanLine at h ⊢
  split at h
  · unfold scanBlock at h ⊢
    split at h
    · exact ⟨[], line, rfl⟩
    · exact (endsOpen_scanCode lexicon _ h).push _
  · exact endsOpen_scanCode lexicon line h

/-- The pieces of a text up to a byte offset have their segments before it. -/
theorem segmentsFrom_append (offset : Nat) (a b : List Piece) :
    segmentsFrom offset (a ++ b) =
      segmentsFrom offset a ++ segmentsFrom (offset + byteLength (a.flatMap Piece.text)) b := by
  induction a generalizing offset with
  | nil => simp [segmentsFrom]
  | cons piece a ih =>
    cases piece <;> simp [segmentsFrom, ih, Piece.text, Nat.add_assoc]

theorem joinCarried_concat (earlier : List Segment) (opened first : Segment)
    (later : List Segment) :
    joinCarried (earlier ++ [opened]) (first :: later) =
      earlier ++ { opened with span := ⟨opened.span.start, first.span.stop⟩ } :: later := by
  simp [joinCarried]

theorem joinCarried_append (earlier later : List Segment) {found : List Segment}
    (h : found ≠ []) :
    joinCarried earlier (found ++ later) = joinCarried earlier found ++ later := by
  obtain ⟨first, rest, rfl⟩ := List.exists_cons_of_ne_nil h
  simp only [joinCarried, List.cons_append]
  cases earlier.getLast? <;> simp

theorem joinCarried_prepend (earlier later : List Segment) {found : List Segment}
    (h : found ≠ []) :
    joinCarried (earlier ++ found) later = earlier ++ joinCarried found later := by
  obtain rfl | ⟨init, last, rfl⟩ := found.eq_nil_or_concat
  · contradiction
  cases later with
  | nil => rfl
  | cons first later =>
    rw [List.concat_eq_append, ← List.append_assoc, joinCarried_concat, joinCarried_concat,
      List.append_assoc]

/-- Carrying on through two lines is carrying on through both at once. -/
theorem joinCarried_assoc (earlier later : List Segment) {found : List Segment}
    (h : found ≠ []) :
    joinCarried (joinCarried earlier found) later =
      joinCarried earlier (joinCarried found later) := by
  obtain rfl | ⟨init, last, rfl⟩ := found.eq_nil_or_concat
  · contradiction
  cases later with
  | nil => rfl
  | cons first later =>
    cases init with
    | nil =>
      obtain rfl | ⟨before, opened, rfl⟩ := earlier.eq_nil_or_concat <;> simp [joinCarried]
    | cons x init =>
      simp only [List.concat_eq_append]
      rw [joinCarried_append _ [last] (List.cons_ne_nil x init), joinCarried_concat,
        joinCarried_concat, joinCarried_append _ _ (List.cons_ne_nil x init)]

/-- The first piece may belong to a block comment that was opened before. -/
def StartsOpen (pieces : List Piece) : Prop :=
  ∃ block later, pieces = .marked .blockComment block :: later

theorem StartsOpen.followedBy {scan : LineScan} (h : StartsOpen scan.pieces) (next : LineScan) :
    StartsOpen (scan.followedBy next).pieces := by
  obtain ⟨pieces, state⟩ := scan
  obtain ⟨block, later, rfl⟩ := h
  unfold LineScan.followedBy
  split
  · cases later with
    | nil => exact ⟨_, _, rfl⟩
    | cons first later => simp [extendLast_cons, StartsOpen]
  · exact ⟨_, _, rfl⟩

section FollowedBy
variable {scan next : LineScan} (ho : scan.state = .inBlockComment → scan.EndsOpen)
  (hn : scan.state = .inBlockComment → StartsOpen next.pieces)
include ho hn

theorem text_followedBy : (scan.followedBy next).text = scan.text ++ '\n' :: next.text := by
  by_cases hs : scan.state = .inBlockComment
  · obtain ⟨pieces, text, rfl⟩ := ho hs
    obtain ⟨state, more⟩ := next
    obtain ⟨block, later, rfl⟩ := hn hs
    simp [LineScan.followedBy_open, LineScan.text, Piece.text]
  · simp [LineScan.followedBy_of_ne hs, LineScan.text, Piece.text]

theorem segmentsFrom_followedBy (offset : Nat) :
    segmentsFrom offset (scan.followedBy next).pieces =
      if scan.state = .inBlockComment then
        joinCarried (segmentsFrom offset scan.pieces)
          (segmentsFrom (offset + byteLength scan.text + 1) next.pieces)
      else
        segmentsFrom offset scan.pieces ++
          segmentsFrom (offset + byteLength scan.text + 1) next.pieces := by
  have hw : '\n'.utf8Size = 1 := rfl
  split
  · next hs =>
    obtain ⟨pieces, text, rfl⟩ := ho hs
    obtain ⟨state, more⟩ := next
    obtain ⟨block, later, rfl⟩ := hn hs
    simp [LineScan.followedBy_open, LineScan.text, Piece.text, segmentsFrom_append, segmentsFrom,
      joinCarried_concat, hw, Nat.add_assoc]
  · next hs =>
    simp [LineScan.followedBy_of_ne hs, LineScan.text, segmentsFrom_append, segmentsFrom, hw,
      Nat.add_assoc]

end FollowedBy

/-- A line that starts inside a block comment starts with a piece of it. -/
theorem startsOpen_scanLine {before : ScanState} (h : before.carriedOver = .inBlockComment)
    (line : List Char) : StartsOpen (scanLine lexicon before line).pieces := by
  unfold scanLine scanBlock
  rw [h]
  dsimp only
  split
  · exact ⟨_, _, rfl⟩
  · exact ⟨_, _, rfl⟩

theorem startsOpen_scanLines {before : ScanState} (h : before.carriedOver = .inBlockComment)
    (line : List Char) (rest : List (List Char)) :
    StartsOpen (scanLines lexicon before (line :: rest)).pieces := by
  cases rest with
  | nil => exact startsOpen_scanLine lexicon h line
  | cons next rest => exact (startsOpen_scanLine lexicon h line).followedBy _

private theorem startsOpen_rest {before : ScanState} (line next : List Char)
    (rest : List (List Char)) (h : (scanLine lexicon before line).state = .inBlockComment) :
    StartsOpen (scanLines lexicon (scanLine lexicon before line).state (next :: rest)).pieces :=
  startsOpen_scanLines lexicon (by rw [h]; rfl) next rest

/-- The pieces of all lines are the text with its newlines. -/
theorem text_scanLines (before : ScanState) (line : List Char) (rest : List (List Char)) :
    (scanLines lexicon before (line :: rest)).text = ['\n'].intercalate (line :: rest) := by
  induction rest generalizing before line with
  | nil => simp [scanLines, text_scanLine]
  | cons next rest ih =>
    rw [scanLines, text_followedBy (endsOpen_scanLine lexicon before line)
      (startsOpen_rest lexicon line next rest), ih, text_scanLine]
    simp [List.intercalate_cons_cons]

theorem scanLine_carriedOver (before : ScanState) (line : List Char) :
    scanLine lexicon before.carriedOver line = scanLine lexicon before line := by
  simp [scanLine]

theorem scanLines_carriedOver (before : ScanState) (lines : List (List Char)) :
    scanLines lexicon before.carriedOver lines = scanLines lexicon before lines := by
  match lines with
  | [] => simp [scanLines]
  | [line] => simp [scanLines, scanLine_carriedOver]
  | line :: next :: rest => simp [scanLines, scanLine_carriedOver]

theorem carriedOver_eq_inBlockComment_iff {state : ScanState} :
    state.carriedOver = .inBlockComment ↔ state = .inBlockComment := by
  cases state <;> simp [ScanState.carriedOver]

namespace Progress

/-- The segments known after some lines, with those that the lines behind them add. -/
def joined (p : Progress) (found : List Segment) : List Segment :=
  if p.state = .inBlockComment then joinCarried p.segments found else p.segments ++ found

theorem segments_addLine (p : Progress) (line : List Char) :
    (p.addLine lexicon line).segments =
      p.joined (segmentsFrom p.offset (scanLine lexicon p.state line).pieces) := rfl

/-- Two lines add what the scan of both adds. -/
theorem joined_addLine (p : Progress) (line next : List Char) (rest : List (List Char)) :
    (p.addLine lexicon line).joined (segmentsFrom (p.addLine lexicon line).offset
        (scanLines lexicon (scanLine lexicon p.state line).state (next :: rest)).pieces) =
      p.joined
        (segmentsFrom p.offset (scanLines lexicon p.state (line :: next :: rest)).pieces) := by
  rw [scanLines, segmentsFrom_followedBy (endsOpen_scanLine lexicon p.state line)
    (startsOpen_rest lexicon line next rest), text_scanLine]
  have hf : p.state = .inBlockComment →
      segmentsFrom p.offset (scanLine lexicon p.state line).pieces ≠ [] := by
    intro h
    have hc : p.state.carriedOver = .inBlockComment := by rw [h]; rfl
    obtain ⟨block, later, hp⟩ := startsOpen_scanLine lexicon hc line
    simp [hp, segmentsFrom]
  have hl : (scanLine lexicon p.state line).state = .inBlockComment →
      segmentsFrom p.offset (scanLine lexicon p.state line).pieces ≠ [] := by
    intro h
    obtain ⟨pieces, text, hp⟩ := endsOpen_scanLine lexicon p.state line h
    simp [hp, segmentsFrom_append, segmentsFrom]
  simp only [joined, addLine, carriedOver_eq_inBlockComment_iff]
  generalize scanLine lexicon p.state line = scan at hf hl ⊢
  by_cases hp : p.state = .inBlockComment <;> by_cases hs : scan.state = .inBlockComment <;>
    simp only [hp, hs, if_true, if_false]
  · exact joinCarried_assoc _ _ (hf hp)
  · exact (joinCarried_append _ _ (hf hp)).symm
  · exact joinCarried_prepend _ _ (hl hs)
  · exact List.append_assoc _ _ _

end Progress

theorem foldl_addLine (p : Progress) (line : List Char) (rest : List (List Char)) :
    (line :: rest).foldl (Progress.addLine lexicon) p =
      { segments :=
          p.joined (segmentsFrom p.offset (scanLines lexicon p.state (line :: rest)).pieces)
        state := (scanLines lexicon p.state (line :: rest)).state.carriedOver
        offset := p.offset + byteLength (['\n'].intercalate (line :: rest)) + 1 } := by
  induction rest generalizing p line with
  | nil => simp [Progress.addLine, Progress.joined, scanLines]
  | cons next rest ih =>
    have hw : '\n'.utf8Size = 1 := rfl
    rw [List.foldl_cons, ih, Progress.mk.injEq]
    have hs : (p.addLine lexicon line).state =
        (scanLine lexicon p.state line).state.carriedOver := rfl
    rw [hs, scanLines_carriedOver]
    refine ⟨p.joined_addLine lexicon line next rest, ?_, ?_⟩
    · simp [scanLines]
    · simp [Progress.addLine, List.intercalate_cons_cons, hw]
      omega

/-- The segments of a text are the marked pieces of the scan of its lines. -/
theorem ofLines_lines (text : List Char) :
    Classification.ofLines lexicon (lines text) =
      ⟨segmentsFrom 0 (scanLines lexicon .code (lines text)).pieces,
        (scanLines lexicon .code (lines text)).state.carriedOver⟩ := by
  obtain ⟨line, rest, hl⟩ := List.exists_cons_of_ne_nil (lines_ne_nil text)
  rw [hl, Classification.ofLines, foldl_addLine]
  simp [Progress.joined, Progress.start]

end Graft.Scan
