import Graft.Proofs.Scan.BuiltIn
import Graft.Proofs.Scan.Stripping

/-! # The text that stripping leaves

Both comment markers of the built-in lexicon begin with a slash, so no slash of code stands
right before a comment.  Hence the characters that a deleted comment leaves side by side form
no marker, a lone quote stays alone, and a line without its comments is read as the pieces that
it keeps (`scanCode_kept`).  The stripped text has no comments, the literals of the text that
it came from, and nothing more to strip.
-/
namespace Graft.Scan
open Graft.Text
variable {lexicon : Lexicon}

/-! ## Pieces that are kept -/

/-- The pieces that are no comments. -/
def uncommentedPieces (pieces : List Piece) : List Piece :=
  pieces.filter fun piece => !piece.isComment

@[simp] theorem uncommentedPieces_nil : uncommentedPieces [] = [] := rfl

@[simp] theorem uncommentedPieces_code (c : Char) (pieces : List Piece) :
    uncommentedPieces (.code c :: pieces) = .code c :: uncommentedPieces pieces := rfl

theorem uncommentedPieces_comment {kind : Kind} (h : kind.isComment = true) (text : List Char)
    (pieces : List Piece) :
    uncommentedPieces (.marked kind text :: pieces) = uncommentedPieces pieces := by
  simp [uncommentedPieces, Piece.isComment, h]

theorem uncommentedPieces_literal {kind : Kind} (h : kind.isComment = false) (text : List Char)
    (pieces : List Piece) :
    uncommentedPieces (.marked kind text :: pieces) =
      .marked kind text :: uncommentedPieces pieces := by
  simp [uncommentedPieces, Piece.isComment, h]

theorem Piece.kept_code (c : Char) : (Piece.code c).kept = [c] := rfl

theorem Piece.kept_comment {kind : Kind} (h : kind.isComment = true) (text : List Char) :
    (Piece.marked kind text).kept = [] :=
  if_pos h

theorem Piece.kept_literal {kind : Kind} (h : kind.isComment = false) (text : List Char) :
    (Piece.marked kind text).kept = text :=
  if_neg (by simp [Piece.isComment, h])

theorem flatMap_kept (pieces : List Piece) :
    pieces.flatMap Piece.kept = (uncommentedPieces pieces).flatMap Piece.text := by
  induction pieces with
  | nil => rfl
  | cons piece rest ih =>
    rw [List.flatMap_cons, ih]
    cases h : piece.isComment <;> simp [uncommentedPieces, Piece.kept, h]

/-- The literal that a piece is. -/
def Piece.literal? : Piece → Option (List Char)
  | .code _ => none
  | .marked kind text => if kind.isLiteral then some text else none

theorem filterMap_literal?_uncommentedPieces (pieces : List Piece) :
    (uncommentedPieces pieces).filterMap Piece.literal? = pieces.filterMap Piece.literal? := by
  unfold uncommentedPieces
  rw [List.filterMap_filter]
  congr 1
  funext piece
  cases piece with
  | code c => rfl
  | marked kind text =>
    cases h : kind.isComment <;>
      simp [Piece.isComment, Piece.literal?, Kind.isLiteral_eq_not_isComment, h]

/-! ## One line -/

theorem notMem_kept_scanCode {c : Char} {line : List Char} (h : c ∉ line) :
    c ∉ (scanCode lexicon line).pieces.flatMap Piece.kept := by
  have ht := text_scanCode lexicon line
  unfold LineScan.text at ht
  exact notMem_kept (by rwa [ht])

/-- What does not begin with a slash begins with no comment, so its first character is kept. -/
theorem head?_kept_scanCode {line : List Char} (h : line.head? ≠ some '/') :
    ((scanCode {} line).pieces.flatMap Piece.kept).head? = line.head? := by
  cases line with
  | nil => rw [scanCode]; rfl
  | cons c rest =>
    have hc : c ≠ '/' := by simpa using h
    have hl := Lexicon.opensLineComment_builtIn hc rest
    have ho := Lexicon.opensBlock_builtIn hc rest
    cases hq : ({} : Lexicon).takeLiteral c rest with
    | none => simp [scanCode_code hl ho hq, Piece.kept_code]
    | some found =>
      obtain ⟨kind, literal, left⟩ := found
      obtain ⟨body, rfl, _⟩ := Lexicon.takeLiteral_taken hq
      have hk := Lexicon.isComment_of_takeLiteral hq
      simp [scanCode_literal hl ho hq, Piece.kept_literal hk]

theorem Lexicon.opensLineComment_slash (text : List Char) :
    ({} : Lexicon).opensLineComment ('/' :: text) = (text.head? == some '/') := by
  cases text <;> simp [opensLineComment, List.isPrefixOf, Bool.beq_comm]

theorem Lexicon.opensBlock_slash (text : List Char) :
    ({} : Lexicon).opensBlock ('/' :: text) = (text.head? == some '*') := by
  have hb : ({} : Lexicon).hasBlocks = true := by decide
  cases text <;> simp [opensBlock, hb, List.isPrefixOf, Bool.beq_comm]

/-- No marker is formed when a comment behind a character of code is deleted. -/
theorem Lexicon.opens_kept {c : Char} {rest : List Char}
    (hl : ({} : Lexicon).opensLineComment (c :: rest) = false)
    (ho : ({} : Lexicon).opensBlock (c :: rest) = false) :
    ({} : Lexicon).opensLineComment
        (c :: (scanCode {} rest).pieces.flatMap Piece.kept) = false ∧
      ({} : Lexicon).opensBlock (c :: (scanCode {} rest).pieces.flatMap Piece.kept) = false := by
  by_cases hc : c = '/'
  · subst hc
    rw [opensLineComment_slash] at hl
    rw [opensLineComment_slash, opensBlock_slash, head?_kept_scanCode (by simpa using hl)]
    exact ⟨hl, opensBlock_slash rest ▸ ho⟩
  · exact ⟨opensLineComment_builtIn hc _, opensBlock_builtIn hc _⟩

/-- A line without its comments is read as the pieces that it keeps. -/
theorem scanCode_kept (line : List Char) :
    scanCode {} ((scanCode {} line).pieces.flatMap Piece.kept) =
      ⟨uncommentedPieces (scanCode {} line).pieces, .code⟩ := by
  fun_induction scanCode {} line with
  | case1 => simp [scanCode]
  | case2 c rest hl =>
    rw [List.flatMap_singleton, Piece.kept_comment rfl, uncommentedPieces_comment rfl, scanCode]
    rfl
  | case3 c rest hl ho hb =>
    rw [List.flatMap_singleton, Piece.kept_comment rfl, uncommentedPieces_comment rfl, scanCode]
    rfl
  | case4 c rest hl ho block left hb ih =>
    rw [LineScan.pieces_push, uncommentedPieces_comment rfl]
    exact ih
  | case5 c rest hl ho hq ih =>
    obtain ⟨hl', ho'⟩ := Lexicon.opens_kept (by simpa using hl) (by simpa using ho)
    have hq' : ({} : Lexicon).takeLiteral c ((scanCode {} rest).pieces.flatMap Piece.kept) =
        none := by
      rw [Lexicon.takeLiteral_eq_none_iff] at hq ⊢
      exact hq.imp_right notMem_kept_scanCode
    rw [LineScan.pieces_push, List.flatMap_cons, Piece.kept_code, List.singleton_append,
      scanCode_code hl' ho' hq', ih]
    rfl
  | case6 c rest hl ho kind literal left hq ih =>
    obtain ⟨body, rfl, _, htaken⟩ := Lexicon.takeLiteral_taken hq
    have hk := Lexicon.isComment_of_takeLiteral hq
    have hc : c ≠ '/' := by
      rintro rfl
      simp [Lexicon.takeLiteral, Lexicon.literalKind?] at hq
    rw [LineScan.pieces_push, List.flatMap_cons, Piece.kept_literal hk, List.cons_append,
      scanCode_literal (Lexicon.opensLineComment_builtIn hc _) (Lexicon.opensBlock_builtIn hc _)
        (htaken _), ih, uncommentedPieces_literal hk]
    rfl

/-! ## The lines that are left -/

/-- The pieces that each line keeps, without the lines that are left out. -/
def keptLines (lexicon : Lexicon) (before : ScanState) : List (List Char) → List (List Piece)
  | [] => []
  | line :: rest =>
    let later := keptLines lexicon (scanLine lexicon before line).state.carriedOver rest
    if isInterior lexicon before line then later
    else uncommentedPieces (scanLine lexicon before line).pieces :: later

theorem stripFrom_eq_flatMap_keptLines (before : ScanState) (lines : List (List Char)) :
    stripFrom lexicon before lines =
      (keptLines lexicon before lines).flatMap fun pieces =>
        pieces.flatMap Piece.text ++ ['\n'] := by
  induction lines generalizing before with
  | nil => rfl
  | cons line rest ih =>
    rw [stripFrom, stripLine, keptLines, ih]
    split
    · rfl
    · rw [List.flatMap_cons, flatMap_kept]

/-- A line of code and literals that is read as the given pieces. -/
structure ReadsBack (pieces : List Piece) : Prop where
  uncommented : uncommentedPieces pieces = pieces
  oneLine : '\n' ∉ pieces.flatMap Piece.text
  scan : scanCode {} (pieces.flatMap Piece.text) = ⟨pieces, .code⟩

theorem ReadsBack.isComment_eq_false {pieces : List Piece} (h : ReadsBack pieces) {piece : Piece}
    (hp : piece ∈ pieces) : piece.isComment = false := by
  rw [← h.uncommented] at hp
  simpa using (List.mem_filter.mp hp).2

theorem uncommentedPieces_idem (pieces : List Piece) :
    uncommentedPieces (uncommentedPieces pieces) = uncommentedPieces pieces := by
  simp [uncommentedPieces]

/-- Behind the comment that a line closes, and on a line that starts in code, the pieces that
are kept are read back. -/
theorem readsBack_scanLine {before : ScanState} {line : List Char}
    (hi : isInterior {} before line = false) (hn : '\n' ∉ line) :
    ReadsBack (uncommentedPieces (scanLine {} before line).pieces) := by
  have hcode (code : List Char) (hc : '\n' ∉ code) :
      ReadsBack (uncommentedPieces (scanCode {} code).pieces) := by
    refine ⟨uncommentedPieces_idem _, ?_, ?_⟩
    · rw [← flatMap_kept]
      exact notMem_kept_scanCode hc
    · rw [← flatMap_kept]
      exact scanCode_kept code
  unfold scanLine
  split
  · next ho =>
    unfold scanBlock
    cases ht : takeThrough ({} : Lexicon).blockClose.toList line with
    | none =>
      rw [isInterior, ho, ht] at hi
      cases hi
    | some found =>
      obtain ⟨block, left⟩ := found
      have hleft : '\n' ∉ left := fun h => hn (by simp [← takeThrough_append ht, h])
      dsimp only
      rw [LineScan.pieces_push, uncommentedPieces_comment rfl]
      exact hcode left hleft
  · exact hcode line hn

theorem readsBack_keptLines (before : ScanState) {lines : List (List Char)}
    (hn : ∀ line ∈ lines, '\n' ∉ line) :
    ∀ pieces ∈ keptLines {} before lines, ReadsBack pieces := by
  induction lines generalizing before with
  | nil => simp [keptLines]
  | cons line rest ih =>
    obtain ⟨hline, hrest⟩ := List.forall_mem_cons.mp hn
    rw [keptLines]
    split
    · exact ih _ hrest
    · next hi =>
      exact List.forall_mem_cons.mpr
        ⟨readsBack_scanLine (by simpa using hi) hline, ih _ hrest⟩

/-! ## Literals -/

/-- The part of a text at a span. -/
def Span.slice (s : Span) (text : List Char) : List Char :=
  takeBytes (s.stop - s.start) (dropBytes s.start text)

/-- The texts of the literals, quotes included, from left to right. -/
def Classification.literalTexts (c : Classification) (text : String) : List (List Char) :=
  c.literals.map (·.slice text.toList)

theorem slice_append (before text after : List Char) :
    Span.slice ⟨byteLength before, byteLength before + byteLength text⟩
      (before ++ (text ++ after)) = text := by
  rw [Span.slice, dropBytes_append, Nat.add_sub_cancel_left, takeBytes_append]

/-- The literal segments of a list of pieces cut its literals out of the text. -/
theorem map_slice_segmentsFrom (before : List Char) (pieces : List Piece) :
    ((segmentsFrom (byteLength before) pieces).filter (·.kind.isLiteral)).map
        (·.span.slice (before ++ pieces.flatMap Piece.text)) =
      pieces.filterMap Piece.literal? := by
  induction pieces generalizing before with
  | nil => rfl
  | cons piece rest ih =>
    have hrest := ih (before ++ piece.text)
    rw [byteLength_append, List.append_assoc] at hrest
    cases piece with
    | code c =>
      rw [Piece.text, byteLength_cons, byteLength_nil, Nat.add_zero] at hrest
      rw [segmentsFrom, List.flatMap_cons]
      exact hrest
    | marked kind text =>
      rw [segmentsFrom, List.flatMap_cons, List.filter_cons]
      cases hk : kind.isLiteral with
      | false => simpa [Piece.literal?, hk, Piece.text] using hrest
      | true =>
        rw [List.filterMap_cons_some (b := text) (by simp [Piece.literal?, hk]), ← hrest]
        simp [Piece.text, slice_append]

theorem filterMap_literal?_followedBy {scan next : LineScan}
    (ho : scan.state = .inBlockComment → scan.EndsOpen)
    (hn : scan.state = .inBlockComment → StartsOpen next.pieces) :
    (scan.followedBy next).pieces.filterMap Piece.literal? =
      scan.pieces.filterMap Piece.literal? ++ next.pieces.filterMap Piece.literal? := by
  by_cases hs : scan.state = .inBlockComment
  · obtain ⟨pieces, text, rfl⟩ := ho hs
    obtain ⟨found, state⟩ := next
    obtain ⟨block, later, rfl⟩ := hn hs
    simp [LineScan.followedBy_open, Piece.literal?, Kind.isLiteral]
  · rw [LineScan.followedBy_of_ne hs, List.filterMap_append, List.filterMap_cons_none rfl]

/-- The literals of some lines, as they are read one after the other, stand on the lines that
are kept. -/
theorem filterMap_literal?_scanLines (before : ScanState) (lines : List (List Char)) :
    (scanLines lexicon before lines).pieces.filterMap Piece.literal? =
      (keptLines lexicon before lines).flatMap (·.filterMap Piece.literal?) := by
  induction lines generalizing before with
  | nil => rfl
  | cons line rest ih =>
    have hline : (keptLines lexicon before (line :: rest)).flatMap (·.filterMap Piece.literal?) =
        (scanLine lexicon before line).pieces.filterMap Piece.literal? ++
          (keptLines lexicon (scanLine lexicon before line).state.carriedOver rest).flatMap
            (·.filterMap Piece.literal?) := by
      rw [keptLines]
      split
      · next hi =>
        simp only [isInterior, Bool.and_eq_true, decide_eq_true_eq, Option.isNone_iff_eq_none] at hi
        have ho : before = .inBlockComment := carriedOver_eq_inBlockComment_iff.mp hi.1
        rw [ho, scanLine_of_unclosed hi.2]
        rfl
      · rw [List.flatMap_cons, filterMap_literal?_uncommentedPieces]
    rw [hline, ← ih, scanLines_carriedOver]
    cases rest with
    | nil => simp [scanLines]
    | cons next rest =>
      rw [scanLines, filterMap_literal?_followedBy (endsOpen_scanLine lexicon before line) ?_]
      intro hs
      exact startsOpen_scanLines lexicon (by rw [hs]; rfl) next rest

theorem literalTexts_of (text : String) :
    (Classification.of lexicon text).literalTexts text =
      (scanLines lexicon .code (lines text.toList)).pieces.filterMap Piece.literal? := by
  have htext : (scanLines lexicon .code (lines text.toList)).pieces.flatMap Piece.text =
      text.toList := by
    obtain ⟨line, rest, hl⟩ := List.exists_cons_of_ne_nil (lines_ne_nil text.toList)
    have ht := text_scanLines lexicon .code line rest
    rwa [← hl, intercalate_lines] at ht
  have hslice := map_slice_segmentsFrom [] (scanLines lexicon .code (lines text.toList)).pieces
  rw [htext] at hslice
  rw [Classification.literalTexts, Classification.literals, Classification.of, ofLines_lines,
    ← hslice, List.map_map]
  rfl

theorem literalTexts_intercalate {lines : List String}
    (hn : ∀ line ∈ lines, '\n' ∉ line.toList) :
    (Classification.of lexicon ("\n".intercalate lines)).literalTexts ("\n".intercalate lines) =
      (keptLines lexicon .code (lines.map String.toList)).flatMap
        (·.filterMap Piece.literal?) := by
  rw [literalTexts_of, ← filterMap_literal?_scanLines, String.toList_intercalate]
  by_cases hne : lines = []
  · subst hne
    have hscan : (scanLines lexicon .code [[]]).pieces = [] := by
      simp [scanLines, scanLine, ScanState.carriedOver, scanCode]
    exact congrArg (List.filterMap Piece.literal?) hscan
  · have hlines : lines.map String.toList ≠ [] := by simpa using hne
    have hnl : ∀ line ∈ lines.map String.toList, '\n' ∉ line := by simpa using hn
    exact congrArg (fun ls => (scanLines lexicon .code ls).pieces.filterMap Piece.literal?)
      (lines_intercalate hnl hlines)

/-! ## The stripped text -/

section
variable {kept : List (List Piece)} (h : ∀ pieces ∈ kept, ReadsBack pieces)
include h

theorem lines_flatMap_readsBack :
    lines (kept.flatMap fun pieces => pieces.flatMap Piece.text ++ ['\n']) =
      kept.map (·.flatMap Piece.text) ++ [[]] := by
  have hjoin : (kept.flatMap fun pieces => pieces.flatMap Piece.text ++ ['\n']) =
      ['\n'].intercalate (kept.map (·.flatMap Piece.text) ++ [[]]) := by
    clear h
    induction kept with
    | nil => rfl
    | cons pieces rest ih =>
      obtain ⟨next, more, hm⟩ := List.exists_cons_of_ne_nil
        (show rest.map (·.flatMap Piece.text) ++ [[]] ≠ [] by simp)
      rw [List.flatMap_cons, ih, List.map_cons, List.cons_append, hm, List.intercalate_cons_cons]
  have hn : ∀ line ∈ kept.map (·.flatMap Piece.text) ++ [[]], '\n' ∉ line := by
    intro line hl
    rcases List.mem_append.mp hl with hl | hl
    · obtain ⟨pieces, hp, rfl⟩ := List.mem_map.mp hl
      exact (h pieces hp).oneLine
    · simp_all
  rw [hjoin, lines_intercalate hn (by simp)]

theorem scanLines_readsBack :
    scanLines {} .code (kept.map (·.flatMap Piece.text) ++ [[]]) =
      ⟨kept.flatMap (· ++ [.code '\n']), .code⟩ := by
  induction kept with
  | nil => simp [scanLines, scanLine, ScanState.carriedOver, scanCode]
  | cons pieces rest ih =>
    obtain ⟨hpieces, hrest⟩ := List.forall_mem_cons.mp h
    have hscan : scanLine {} .code (pieces.flatMap Piece.text) = ⟨pieces, .code⟩ := hpieces.scan
    obtain ⟨next, more, hm⟩ := List.exists_cons_of_ne_nil
      (show rest.map (·.flatMap Piece.text) ++ [[]] ≠ [] by simp)
    have hlater := ih hrest
    rw [hm] at hlater
    rw [List.map_cons, List.cons_append, hm, scanLines, hscan,
      LineScan.followedBy_of_ne (by simp), hlater]
    simp

theorem stripFrom_readsBack :
    stripFrom {} .code (kept.map (·.flatMap Piece.text)) =
      kept.flatMap fun pieces => pieces.flatMap Piece.text ++ ['\n'] := by
  induction kept with
  | nil => rfl
  | cons pieces rest ih =>
    obtain ⟨hpieces, hrest⟩ := List.forall_mem_cons.mp h
    have hscan : scanLine {} .code (pieces.flatMap Piece.text) = ⟨pieces, .code⟩ := hpieces.scan
    have hi : isInterior {} .code (pieces.flatMap Piece.text) = false := rfl
    rw [List.map_cons, stripFrom, stripLine, hi, hscan, List.flatMap_cons]
    have hlater := ih hrest
    simp only [flatMap_kept, hpieces.uncommented, ScanState.carriedOver, hlater]
    rfl

variable {text : String} (ht : text.toList = kept.flatMap fun pieces =>
  pieces.flatMap Piece.text ++ ['\n'])
include ht

/-- The lines are read in code from their starts to their ends, one behind the other. -/
theorem scanLines_lines_readsBack : scanLines {} .code (lines text.toList) =
    ⟨kept.flatMap (· ++ [.code '\n']), .code⟩ := by
  rw [ht, lines_flatMap_readsBack h, scanLines_readsBack h]

theorem of_readsBack : Classification.of {} text =
    ⟨segmentsFrom 0 (kept.flatMap (· ++ [.code '\n'])), .code⟩ := by
  rw [Classification.of, ofLines_lines, scanLines_lines_readsBack h ht]
  rfl

theorem isComment_of_readsBack {s : Segment} (hs : s ∈ (Classification.of {} text).segments) :
    s.kind.isComment = false := by
  rw [of_readsBack h ht] at hs
  obtain ⟨before, text, after, hp, _⟩ := mem_segmentsFrom.mp hs
  have hmem : .marked s.kind text ∈ kept.flatMap (· ++ [.code '\n']) := by simp [hp]
  obtain ⟨pieces, hk, hmem⟩ := List.mem_flatMap.mp hmem
  exact (h pieces hk).isComment_eq_false (by simpa using hmem)

theorem literalTexts_readsBack : (Classification.of {} text).literalTexts text =
    kept.flatMap (·.filterMap Piece.literal?) := by
  have hnewline : [Piece.code '\n'].filterMap Piece.literal? = [] := rfl
  rw [literalTexts_of, scanLines_lines_readsBack h ht]
  simp [List.filterMap_flatMap, hnewline]

theorem strip_readsBack :
    strip {} ((kept.map (·.flatMap Piece.text)).map .ofList) = text := by
  rw [strip, ← String.toList_inj, String.toList_ofList, List.map_map, ht, ← stripFrom_readsBack h]
  simp

end

theorem strip_leaves_no_comment {lines : List String} (hn : ∀ line ∈ lines, '\n' ∉ line.toList) :
    let stripped := strip {} lines
    let c := Classification.of {} stripped
    let joined := "\n".intercalate lines
    (∀ s ∈ c.segments, s.kind.isComment = false) ∧ c.endState = .code ∧
      c.literalTexts stripped = (Classification.of {} joined).literalTexts joined ∧
      ∃ kept, Text.lines stripped.toList = kept ++ [[]] ∧
        strip {} (kept.map .ofList) = stripped := by
  intro stripped c joined
  have h := readsBack_keptLines .code (show ∀ line ∈ lines.map String.toList, '\n' ∉ line by
    simpa using hn)
  have ht : stripped.toList = (keptLines {} .code (lines.map String.toList)).flatMap
      fun pieces => pieces.flatMap Piece.text ++ ['\n'] := by
    rw [← stripFrom_eq_flatMap_keptLines]
    exact String.toList_ofList
  refine ⟨fun s => isComment_of_readsBack h ht, ?_, ?_, _, ?_, strip_readsBack h ht⟩
  · exact congrArg Classification.endState (of_readsBack h ht)
  · exact (literalTexts_readsBack h ht).trans (literalTexts_intercalate hn).symm
  · rw [ht, lines_flatMap_readsBack h]

/-- A comment between two slashes, and a quote that only a comment answers. -/
theorem strip_leaves_no_comment_slashes :
    let lines := ["a / /* // */ / 'b", "// '", "\"/*\" /* \"", "*/ 'c'"]
    (∀ line ∈ lines, '\n' ∉ line.toList) ∧
      strip {} lines = "a /  / 'b\n\n\"/*\" \n 'c'\n" ∧
      (∀ s ∈ (Classification.of {} (strip {} lines)).segments, s.kind.isComment = false) ∧
      (Classification.of {} (strip {} lines)).literalTexts (strip {} lines) =
        ["\"/*\"".toList, "'c'".toList] := by
  intro lines
  have hn : ∀ line ∈ lines, '\n' ∉ line.toList := by decide +kernel
  obtain ⟨hs, _, hl, _⟩ := strip_leaves_no_comment hn
  exact ⟨hn, by decide +kernel, hs, hl.trans (by decide +kernel)⟩

end Graft.Scan
