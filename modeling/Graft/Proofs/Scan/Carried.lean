import Graft.Proofs.Scan.Commented
import Graft.Proofs.Scan.Lines

/-! # A comment carried from line to line

The classifier joins what it finds on a line to what it found before.  Behind the start of the
line the comments are then those found from there on, up to its end those of the line itself,
and the only block comment that reaches into the line from before is the one that was open.
-/
namespace Graft.Scan
open Graft.Text
variable {lexicon : Lexicon}

/-! ## Joining a carried comment -/

namespace Progress

/-- Before a line all segments are complete, but for a block comment that may go on. -/
structure Ahead (p : Progress) : Prop where
  before : ∀ s ∈ p.segments, s.span.start < p.offset ∧ s.span.stop < p.offset
  opened : p.state = .inBlockComment →
    ∃ init last, p.segments = init ++ [last] ∧ last.kind = .blockComment

theorem ahead_start : Ahead start :=
  ⟨by simp [start], by simp [start]⟩

theorem joined_of_not_open {p : Progress} (ho : p.state ≠ .inBlockComment)
    (found : List Segment) : p.joined found = p.segments ++ found :=
  if_neg ho

section
variable {p : Progress} (h : Ahead p)
include h

/-- The first segment on a line that starts in a block comment ends the one that was open. -/
theorem joined_of_open (ho : p.state = .inBlockComment) (first : Segment) (later : List Segment) :
    ∃ init last, p.segments = init ++ [last] ∧ last.kind = .blockComment ∧
      p.joined (first :: later) =
        init ++ ⟨.blockComment, last.span.start, first.span.stop⟩ :: later := by
  obtain ⟨init, last, hs, hk⟩ := h.opened ho
  refine ⟨init, last, hs, hk, ?_⟩
  rw [joined, if_pos ho, hs, joinCarried_concat, hk]

variable {found : List Segment} (hf : p.state = .inBlockComment →
  ∃ stop later, found = ⟨.blockComment, p.offset, stop⟩ :: later)
include hf

/-- Behind the start of a line the comments are those found from there on. -/
theorem inComment_joined {i : Nat} (hi : p.offset ≤ i) :
    inComment (p.joined found) i = inComment found i := by
  have hpast : ∀ s ∈ p.segments, s.span.stop ≤ i ∨ i < s.span.start := fun s hs =>
    .inl (Nat.le_trans (Nat.le_of_lt (h.before s hs).2) hi)
  by_cases ho : p.state = .inBlockComment
  · obtain ⟨stop, later, rfl⟩ := hf ho
    obtain ⟨init, last, hs, hk, hj⟩ := joined_of_open h ho ⟨.blockComment, p.offset, stop⟩ later
    have hstart := (h.before last (by simp [hs])).1
    have hinit : inComment init i = false :=
      inComment_eq_false fun s hm => hpast s (by simp [hs, hm])
    have hle : last.span.start ≤ i := by omega
    simp [hj, hinit, Span.contains, hle, hi]
  · rw [joined_of_not_open ho, inComment_append, inComment_eq_false hpast, Bool.false_or]

/-- The only block comment that reaches from before a line into it is the one that was open. -/
theorem exists_mem_joined_iff (hl : ∀ s ∈ found, p.offset ≤ s.span.start) (reaches : Nat → Prop)
    (hr : ∀ stop, reaches stop → p.offset ≤ stop) :
    (∃ s ∈ p.joined found, s.kind = .blockComment ∧ s.span.start < p.offset ∧
        reaches s.span.stop) ↔
      p.state = .inBlockComment ∧
        ∃ stop later, found = ⟨.blockComment, p.offset, stop⟩ :: later ∧ reaches stop := by
  have hold : ∀ s ∈ p.segments, ¬ reaches s.span.stop := fun s hs hstop =>
    Nat.not_le.mpr (h.before s hs).2 (hr _ hstop)
  by_cases ho : p.state = .inBlockComment
  · obtain ⟨stop, later, rfl⟩ := hf ho
    obtain ⟨init, last, hs, hk, hj⟩ := joined_of_open h ho ⟨.blockComment, p.offset, stop⟩ later
    rw [hj]
    constructor
    · rintro ⟨s, hm, hkind, hstart, hstop⟩
      rcases List.mem_append.mp hm with hm | hm
      · exact absurd hstop (hold s (by simp [hs, hm]))
      · rcases List.mem_cons.mp hm with rfl | hm
        · exact ⟨ho, stop, later, rfl, hstop⟩
        · exact absurd hstart (Nat.not_lt.mpr (hl s (List.mem_cons_of_mem _ hm)))
    · rintro ⟨_, stop', later', he, hstop⟩
      obtain ⟨rfl, rfl⟩ := by simpa using he
      exact ⟨⟨.blockComment, last.span.start, stop⟩, by simp, rfl,
        (h.before last (by simp [hs])).1, hstop⟩
  · rw [joined_of_not_open ho]
    constructor
    · rintro ⟨s, hm, hkind, hstart, hstop⟩
      rcases List.mem_append.mp hm with hm | hm
      · exact absurd hstop (hold s hm)
      · exact absurd hstart (Nat.not_lt.mpr (hl s hm))
    · rintro ⟨hopen, _⟩
      exact absurd hopen ho

end

/-- What is joined starts and stops where its parts do. -/
theorem mem_joined {p : Progress} {found : List Segment} {s : Segment} (h : s ∈ p.joined found) :
    s ∈ p.segments ∨ s ∈ found ∨ ∃ opened ∈ p.segments, ∃ first ∈ found,
      s = { opened with span := ⟨opened.span.start, first.span.stop⟩ } := by
  unfold joined at h
  split at h
  · cases found with
    | nil => exact .inl h
    | cons first later =>
      obtain hn | ⟨init, last, hs⟩ := p.segments.eq_nil_or_concat
      · rw [hn] at h
        exact .inr (.inl (List.mem_cons_of_mem first h))
      · rw [hs, List.concat_eq_append, joinCarried_concat] at h
        rw [hs, List.concat_eq_append]
        rcases List.mem_append.mp h with h | h
        · exact .inl (List.mem_append_left _ h)
        · rcases List.mem_cons.mp h with rfl | h
          · exact .inr (.inr ⟨last, by simp, first, List.mem_cons_self, rfl⟩)
          · exact .inr (.inl (List.mem_cons_of_mem first h))
  · rcases List.mem_append.mp h with h | h
    · exact .inl h
    · exact .inr (.inl h)

theorem Ahead.addLine {p : Progress} (h : Ahead p) (line : List Char) :
    Ahead (p.addLine lexicon line) := by
  have hoffset : (p.addLine lexicon line).offset = p.offset + byteLength line + 1 := rfl
  have hfound : ∀ s ∈ segmentsFrom p.offset (scanLine lexicon p.state line).pieces,
      s.span.start ≤ s.span.stop ∧ s.span.stop ≤ p.offset + byteLength line := by
    intro s hs
    have hle := (le_of_mem_segmentsFrom hs).2
    obtain ⟨_, _, _, _, _, hstop⟩ := mem_segmentsFrom.mp hs
    have ht := text_scanLine lexicon p.state line
    unfold LineScan.text at ht
    rw [ht] at hle
    exact ⟨by omega, hle⟩
  constructor
  · intro s hs
    rw [segments_addLine] at hs
    rcases mem_joined hs with hs | hs | ⟨opened, hopened, first, hfirst, rfl⟩
    · have := h.before s hs
      omega
    · have := hfound s hs
      omega
    · have := h.before opened hopened
      have := hfound first hfirst
      constructor
      · change opened.span.start < _
        omega
      · change first.span.stop < _
        omega
  · intro ho
    obtain ⟨pieces, text, hl⟩ := endsOpen_scanLine lexicon p.state line
      (carriedOver_eq_inBlockComment_iff.mp ho)
    rw [segments_addLine, hl, segmentsFrom_append]
    by_cases hp : p.state = .inBlockComment
    · cases hs : segmentsFrom p.offset pieces with
      | nil =>
        obtain ⟨init, last, _, _, hj⟩ := joined_of_open h hp ⟨.blockComment, _, _⟩ []
        exact ⟨init, _, hj, rfl⟩
      | cons first later =>
        obtain ⟨init, last, _, _, hj⟩ :=
          joined_of_open h hp first (later ++ [⟨.blockComment, _, _⟩])
        exact ⟨init ++ ⟨.blockComment, last.span.start, first.span.stop⟩ :: later, _,
          hj.trans (List.append_assoc init (_ :: later) _).symm, rfl⟩
    · rw [joined_of_not_open hp, ← List.append_assoc]
      exact ⟨_, _, rfl, rfl⟩

end Progress

/-! ## The first of several lines -/

/-- A line that starts in a block comment has its first segment at its start. -/
theorem exists_segmentsFrom_of_open {before : ScanState} (ho : before = .inBlockComment)
    (offset : Nat) (line : List Char) (rest : List (List Char)) :
    ∃ stop later, segmentsFrom offset (scanLines lexicon before (line :: rest)).pieces =
      ⟨.blockComment, offset, stop⟩ :: later := by
  subst ho
  obtain ⟨block, later, hp⟩ := startsOpen_scanLines lexicon
    (show ScanState.inBlockComment.carriedOver = .inBlockComment from rfl) line rest
  rw [hp]
  exact ⟨_, _, rfl⟩

/-- Up to the end of a line the lines behind it change nothing. -/
theorem inComment_scanLines (before : ScanState) (offset : Nat) (line : List Char)
    (rest : List (List Char)) {i : Nat} (hi : i < offset + byteLength line) :
    inComment (segmentsFrom offset (scanLines lexicon before (line :: rest)).pieces) i =
      inComment (segmentsFrom offset (scanLine lexicon before line).pieces) i := by
  cases rest with
  | nil => rfl
  | cons next rest =>
    have hbehind {a : Nat} (ha : i < a) (pieces : List Piece) :
        inComment (segmentsFrom a pieces) i = false :=
      inComment_eq_false fun s hs => .inr (Nat.lt_of_lt_of_le ha (le_of_mem_segmentsFrom hs).1)
    have htext := text_scanLine lexicon before line
    rw [scanLines]
    by_cases ho : (scanLine lexicon before line).state = .inBlockComment
    · obtain ⟨pieces, text, hl⟩ := endsOpen_scanLine lexicon before line ho
      obtain ⟨block, later, hn⟩ := startsOpen_scanLines lexicon
        (show ScanState.inBlockComment.carriedOver = .inBlockComment from rfl) next rest
      rw [hl] at htext ⊢
      generalize scanLines lexicon _ (next :: rest) = scan at hn
      obtain ⟨_, state⟩ := scan
      subst hn
      rw [← htext] at hi
      simp only [LineScan.text, List.flatMap_append, List.flatMap_singleton, Piece.text,
        byteLength_append] at hi
      have hlong : i < offset + byteLength (pieces.flatMap Piece.text) +
          byteLength (text ++ '\n' :: block) := by
        simp only [byteLength_append]
        omega
      have hshort : i < offset + byteLength (pieces.flatMap Piece.text) + byteLength text := by
        omega
      rw [LineScan.followedBy_open]
      simp only [segmentsFrom_append, segmentsFrom, inComment_append, inComment_cons,
        inComment_nil, hbehind hlong, Span.contains, hlong, hshort]
    · rw [LineScan.followedBy_of_ne ho, segmentsFrom_append, inComment_append]
      unfold LineScan.text at htext
      rw [htext, segmentsFrom, hbehind (Nat.lt_add_right _ hi), Bool.or_false]

theorem scanLine_of_closed {line block left : List Char}
    (ht : takeThrough lexicon.blockClose.toList line = some (block, left)) :
    scanLine lexicon .inBlockComment line =
      (scanCode lexicon left).push (.marked .blockComment block) := by
  change scanBlock lexicon line = _
  unfold scanBlock
  split
  · next h => simp [h] at ht
  · next h => simp_all

theorem scanLine_of_unclosed {line : List Char}
    (ht : takeThrough lexicon.blockClose.toList line = none) :
    scanLine lexicon .inBlockComment line =
      ⟨[.marked .blockComment line], .inBlockComment⟩ := by
  change scanBlock lexicon line = _
  simp [scanBlock, ht]

/-- A line that closes the comment carried into it starts with the end of that comment. -/
theorem exists_scanLines_push {line block left : List Char} (rest : List (List Char))
    (ht : takeThrough lexicon.blockClose.toList line = some (block, left)) :
    ∃ more, scanLines lexicon .inBlockComment (line :: rest) =
        LineScan.push (.marked .blockComment block) more ∧
      (rest = [] → more = scanCode lexicon left) := by
  have hl := scanLine_of_closed ht
  cases rest with
  | nil => exact ⟨scanCode lexicon left, hl, fun _ => rfl⟩
  | cons next rest =>
    rw [scanLines, hl, LineScan.push_followedBy (endsOpen_scanCode lexicon left)]
    exact ⟨_, rfl, by simp⟩

/-- A line that does not close the comment carried into it hands it on, newline included. -/
theorem exists_scanLines_cons {line : List Char} (next : List Char) (rest : List (List Char))
    (ht : takeThrough lexicon.blockClose.toList line = none) :
    ∃ block more state, scanLines lexicon .inBlockComment (line :: next :: rest) =
      ⟨.marked .blockComment (line ++ '\n' :: block) :: more, state⟩ := by
  obtain ⟨block, later, hn⟩ := startsOpen_scanLines lexicon
    (show ScanState.inBlockComment.carriedOver = .inBlockComment from rfl) next rest
  rw [scanLines, scanLine_of_unclosed ht]
  generalize scanLines lexicon _ (next :: rest) = scan at hn
  obtain ⟨_, state⟩ := scan
  subst hn
  exact ⟨block, later, state, LineScan.followedBy_open [] _ _ _ _ _ _⟩

/-- The first segment of a line that starts in a block comment reaches behind the line, or to
its open end, exactly when the line does not close the comment. -/
theorem reaches_iff_isInterior {before : ScanState} (ho : before = .inBlockComment)
    {offset stop : Nat} {line : List Char} {rest : List (List Char)} {later : List Segment}
    (hs : segmentsFrom offset (scanLines lexicon before (line :: rest)).pieces =
      ⟨.blockComment, offset, stop⟩ :: later) :
    (offset + byteLength line < stop ∨ stop = offset + byteLength line ∧ rest = [] ∧
        (scanLines lexicon before (line :: rest)).state = .inBlockComment) ↔
      isInterior lexicon before line = true := by
  subst ho
  cases ht : takeThrough lexicon.blockClose.toList line with
  | none =>
    have hi : isInterior lexicon .inBlockComment line = true := by
      simp [isInterior, ScanState.carriedOver, ht]
    refine iff_of_true ?_ hi
    cases rest with
    | nil =>
      rw [scanLines, scanLine_of_unclosed ht] at hs ⊢
      obtain ⟨hstop, _⟩ := by simpa [segmentsFrom] using hs
      exact .inr ⟨hstop.symm, rfl, rfl⟩
    | cons next rest =>
      obtain ⟨block, more, state, he⟩ := exists_scanLines_cons next rest ht
      have := Char.utf8Size_pos '\n'
      rw [he] at hs
      simp only [segmentsFrom, List.cons.injEq, Segment.mk.injEq, Span.mk.injEq, true_and,
        byteLength_append, byteLength_cons] at hs
      omega
  | some found =>
    obtain ⟨block, left⟩ := found
    have hi : isInterior lexicon .inBlockComment line = false := by
      simp [isInterior, ht]
    obtain ⟨more, he, hmore⟩ := exists_scanLines_push rest ht
    rw [he] at hs ⊢
    simp only [LineScan.pieces_push, segmentsFrom, List.cons.injEq, Segment.mk.injEq,
      Span.mk.injEq, true_and] at hs
    have hlen := congrArg byteLength (takeThrough_append ht)
    rw [byteLength_append] at hlen
    refine iff_of_false ?_ (by simp [hi])
    rintro (hlt | ⟨heq, hrest, hstate⟩)
    · omega
    · -- the line ends with the marker, so code follows
      have hleft : left = [] := byteLength_eq_zero_iff.mp (by omega)
      rw [LineScan.state_push, hmore hrest, hleft, scanCode] at hstate
      cases hstate

end Graft.Scan
