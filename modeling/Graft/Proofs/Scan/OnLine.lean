import Graft.Proofs.Scan.Segments

/-! # The segments of one line

What is found on a line lies on it in order and apart.  Every comment and literal takes a byte
at least, so their number is bounded by the length of the line; only the block comment that is
open at its start may end there, with nothing left of it.  This holds for every vocabulary and
also where a line holds newlines.
-/
namespace Graft.Scan
open Graft.Text
variable {lexicon : Lexicon}

theorem text_ne_nil_of_mem_scanCode {text : List Char} {piece : Piece}
    (h : piece ∈ (scanCode lexicon text).pieces) : piece.text ≠ [] := by
  fun_induction scanCode lexicon text with
  | case1 => simp at h
  | case2 c rest hl =>
    obtain rfl := List.mem_singleton.mp h
    exact List.cons_ne_nil c rest
  | case3 c rest hl ho hb =>
    obtain rfl := List.mem_singleton.mp h
    exact List.cons_ne_nil c rest
  | case4 c rest hl ho block left hb ih =>
    rcases List.mem_cons.mp h with rfl | h
    · exact Lexicon.ne_nil_of_takeBlock ho hb
    · exact ih h
  | case5 c rest hl ho hq ih =>
    rcases List.mem_cons.mp h with rfl | h
    · exact List.cons_ne_nil c []
    · exact ih h
  | case6 c rest hl ho kind literal left hq ih =>
    rcases List.mem_cons.mp h with rfl | h
    · exact Lexicon.ne_nil_of_takeLiteral hq
    · exact ih h

/-- Segments that hold a byte each are not more than there are bytes. -/
theorem length_segmentsFrom_le (offset : Nat) {pieces : List Piece}
    (h : ∀ piece ∈ pieces, piece.text ≠ []) :
    (segmentsFrom offset pieces).length ≤ byteLength (pieces.flatMap Piece.text) := by
  induction pieces generalizing offset with
  | nil => exact Nat.le_refl 0
  | cons piece pieces ih =>
    obtain ⟨hpiece, hrest⟩ := List.forall_mem_cons.mp h
    have hle := fun offset => ih offset hrest
    rw [List.flatMap_cons, byteLength_append]
    cases piece with
    | code c => exact Nat.le_trans (hle _) (Nat.le_add_left _ _)
    | marked kind text =>
      have := length_le_byteLength text
      have := List.length_pos_iff.mpr hpiece
      have := hle (offset + byteLength text)
      simp only [segmentsFrom, List.length_cons, Piece.text] at *
      omega

/-- Segments on a line of `size` bytes: in order and apart, one for each byte and one more at
most, none of them empty but for the end of a block comment that was opened before. -/
structure OnLine (before : ScanState) (size : Nat) (segments : List Segment) : Prop where
  length_le : segments.length ≤ size + 1
  within : ∀ s ∈ segments, s.span.start ≤ s.span.stop ∧ s.span.stop ≤ size
  ordered : segments.Pairwise fun a b => a.span.stop ≤ b.span.start
  head : ∀ s, segments.head? = some s → s.span.start < s.span.stop ∨
    before.carriedOver = .inBlockComment ∧ s.kind = .blockComment
  tail : ∀ s ∈ segments.tail, s.span.start < s.span.stop

theorem onLine_scanCode {before : ScanState} (line : List Char) :
    OnLine before (byteLength line) (segmentsFrom 0 (scanCode lexicon line).pieces) := by
  have hne (piece : Piece) (hp : piece ∈ (scanCode lexicon line).pieces) : piece.text ≠ [] :=
    text_ne_nil_of_mem_scanCode hp
  have hplaced := placed_segmentsFrom 0 hne
  have hlength := length_segmentsFrom_le 0 hne
  have htext := text_scanCode lexicon line
  unfold LineScan.text at htext
  rw [htext] at hlength
  refine ⟨Nat.le_succ_of_le hlength, fun s hs => ?_, hplaced.ordered, fun s hs => ?_,
    fun s hs => hplaced.start_lt s (List.mem_of_mem_tail hs)⟩
  · have hle := (le_of_mem_segmentsFrom hs).2
    rw [htext, Nat.zero_add] at hle
    exact ⟨Nat.le_of_lt (hplaced.start_lt s hs), hle⟩
  · exact .inl (hplaced.start_lt s (List.mem_of_head? hs))

/-- Only the piece of the block comment that was open may be empty. -/
theorem exists_pieces_scanBlock (lexicon : Lexicon) (line : List Char) :
    ∃ block later, (scanBlock lexicon line).pieces = .marked .blockComment block :: later ∧
      block ++ later.flatMap Piece.text = line ∧ ∀ piece ∈ later, piece.text ≠ [] := by
  unfold scanBlock
  split
  · exact ⟨line, [], rfl, List.append_nil line, by simp⟩
  · next block rest h =>
    have htext := text_scanCode lexicon rest
    unfold LineScan.text at htext
    exact ⟨block, _, rfl, by rw [htext, takeThrough_append h],
      fun piece hp => text_ne_nil_of_mem_scanCode hp⟩

theorem onLine_scanBlock {before : ScanState} (h : before.carriedOver = .inBlockComment)
    (line : List Char) :
    OnLine before (byteLength line) (segmentsFrom 0 (scanBlock lexicon line).pieces) := by
  obtain ⟨block, later, hp, htext, hne⟩ := exists_pieces_scanBlock lexicon line
  have hplaced := placed_segmentsFrom (0 + byteLength block) hne
  have hlength := length_segmentsFrom_le (0 + byteLength block) hne
  have hsize := congrArg byteLength htext
  rw [byteLength_append] at hsize
  have hlater (s : Segment) (hs : s ∈ segmentsFrom (0 + byteLength block) later) :
      byteLength block ≤ s.span.start ∧ s.span.stop ≤ byteLength line := by
    have := le_of_mem_segmentsFrom hs
    omega
  rw [hp, segmentsFrom]
  refine ⟨?_, ?_, ?_, ?_, hplaced.start_lt⟩
  · rw [List.length_cons]
    omega
  · refine List.forall_mem_cons.mpr ⟨⟨by simp, ?_⟩, fun s hs => ?_⟩
    · simp only
      omega
    · exact ⟨Nat.le_of_lt (hplaced.start_lt s hs), (hlater s hs).2⟩
  · refine .cons (fun s hs => ?_) hplaced.ordered
    have := (hlater s hs).1
    simp only
    omega
  · intro s hs
    obtain rfl := Option.some.inj hs
    exact .inr ⟨h, rfl⟩

theorem onLine_scanLine (lexicon : Lexicon) (before : ScanState) (line : List Char) :
    OnLine before (byteLength line) (scanLine lexicon before line).segments := by
  unfold LineScan.segments scanLine
  rcases before.carriedOver_cases with h | h
  · rw [h]
    exact onLine_scanCode line
  · rw [h]
    exact onLine_scanBlock h line

end Graft.Scan
