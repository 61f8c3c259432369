import Graft.Proofs.Scan.Reading
import Graft.Proofs.Scan.Segments

/-! # A text with more behind it

What follows a text changes little of how the text is read: a marker may reach across its end,
a line comment or an open block comment goes on, and a lone quote on the last line may find its
partner, which makes a literal of all that stands behind the quote.  So no comment appears in
the text, unless an opening marker starts with its last characters (`CommentFree.append`).
-/
namespace Graft.Scan
open Graft.Text
variable {lexicon : Lexicon}

/-- The first line of a text when more follows the text: it is longer only if it was the last. -/
theorem exists_line_append {c : Char} {line tail : List Char} (hn : '\n' ∉ c :: line)
    (ht : LineEnd tail) (b : List Char) :
    ∃ more tail', tail ++ b = more ++ tail' ∧ '\n' ∉ c :: (line ++ more) ∧ LineEnd tail' ∧
      (tail = [] ∨ more = []) := by
  have hm : '\n' ≠ c ∧ '\n' ∉ line := by simpa using hn
  rcases ht with rfl | ⟨rest, rfl⟩
  · exact ⟨_, _, (cutLine_append b).symm, by simp [hm, notMem_cutLine], lineEnd_cutLine b, .inl rfl⟩
  · exact ⟨[], '\n' :: rest ++ b, rfl, by simpa using hn, .inr ⟨rest ++ b, rfl⟩, .inr rfl⟩

namespace Lexicon

theorem takeBlock_append_right (hc : lexicon.blockClose ≠ "") {text block left : List Char}
    (ho : lexicon.opensBlock text = true) (h : lexicon.takeBlock text = some (block, left))
    (more : List Char) : lexicon.takeBlock (text ++ more) = some (block, left ++ more) := by
  rw [← takeBlock_append ho h, List.append_assoc, takeBlock_taken hc h]

theorem takeLiteral_append_right {c : Char} {text literal left : List Char} {kind : Kind}
    (h : lexicon.takeLiteral c text = some (kind, literal, left)) (more : List Char) :
    lexicon.takeLiteral c (text ++ more) = some (kind, literal, left ++ more) := by
  obtain ⟨body, rfl, rfl, htaken⟩ := takeLiteral_taken h
  rw [List.append_assoc, htaken]

variable {a tail more : List Char} (hm : tail = [] ∨ more = [])
include hm

/-- A marker that neither starts a line nor reaches across the end of the text does not start the
line when more follows it. -/
theorem not_prefix_append {marker : List Char} (h : ¬ marker <+: a)
    (hx : ¬ a ++ tail <+: marker) : ¬ marker <+: a ++ more := by
  intro hp
  rcases hm with rfl | rfl
  · rw [List.append_nil] at hx
    exact (List.prefix_or_prefix_of_prefix hp (List.prefix_append a more)).elim h hx
  · exact h (by simpa using hp)

theorem opensLineComment_append (h : lexicon.opensLineComment a = false)
    (hx : ¬ a ++ tail <+: lexicon.lineComment.toList) :
    lexicon.opensLineComment (a ++ more) = false := by
  rw [opensLineComment, ← Bool.not_eq_true, List.isPrefixOf_iff_prefix] at h ⊢
  exact not_prefix_append hm h hx

theorem opensBlock_append (h : lexicon.opensBlock a = false)
    (hx : ¬ a ++ tail <+: lexicon.blockOpen.toList) :
    lexicon.opensBlock (a ++ more) = false := by
  rw [opensBlock, ← Bool.not_eq_true, Bool.and_eq_true, List.isPrefixOf_iff_prefix,
    not_and] at h ⊢
  exact fun hb => not_prefix_append hm (h hb) hx

/-- The partner of a quote that was alone on the line stands behind the text. -/
theorem prefix_of_takeLiteral_append {c : Char} {literal left : List Char} {kind : Kind}
    (h : lexicon.takeLiteral c a = none)
    (h' : lexicon.takeLiteral c (a ++ more) = some (kind, literal, left)) :
    c :: a ++ tail <+: literal := by
  rcases hm with rfl | rfl
  · obtain ⟨body, rfl, hbody, htaken⟩ := takeLiteral_taken h'
    rw [List.append_nil, List.cons_prefix_cons]
    refine ⟨rfl, (List.prefix_or_prefix_of_prefix (List.prefix_append a more)
      (hbody ▸ List.prefix_append body left)).resolve_right ?_⟩
    rintro ⟨r, rfl⟩
    simp [htaken r] at h
  · simp [h] at h'

end Lexicon

/-- The step at the start of a text when more follows the text: the same one, or a line comment
that goes on, or a literal whose first quote was alone. -/
theorem Step.append (hc : lexicon.blockClose ≠ "") {a rest : List Char} {piece : Piece}
    (h : Step lexicon a piece rest) (hl : ¬ a <+: lexicon.lineComment.toList)
    (ho : ¬ a <+: lexicon.blockOpen.toList) (b : List Char) :
    Step lexicon (a ++ b) piece (rest ++ b) ∨ piece.isComment = true ∧ rest = [] ∨
      ∃ kind literal left, Step lexicon (a ++ b) (.marked kind literal) left ∧
        kind.isComment = false ∧ a <+: literal := by
  cases h with
  | newline rest => exact .inl (.newline (rest ++ b))
  | @lineComment c line tail hn ht hopens =>
    obtain ⟨more, tail', hb, hn', ht', rfl | rfl⟩ := exists_line_append hn ht b
    · exact .inr (.inl ⟨rfl, rfl⟩)
    · rw [List.nil_append] at hb
      rw [List.append_assoc, hb]
      exact .inl (.lineComment hn ht' hopens)
  | @block c line tail block _ hn ht hopens hblock htake =>
    obtain ⟨more, tail', hb, hn', ht', hm⟩ := exists_line_append hn ht b
    have hopens' := Lexicon.opensLineComment_append hm hopens hl
    have htake' := Lexicon.takeBlock_append_right hc
      (Lexicon.opensBlock_mono (List.prefix_append _ tail) hblock) htake b
    have htext : c :: line ++ tail ++ b = c :: (line ++ more) ++ tail' := by simp [hb]
    rw [htext] at htake' ⊢
    exact .inl (.block hn' ht' hopens'
      (Lexicon.opensBlock_mono (List.prefix_append (c :: line) more) hblock) htake')
  | @literal c line tail literal left kind hn ht hopens hblock htake =>
    obtain ⟨more, tail', hb, hn', ht', hm⟩ := exists_line_append hn ht b
    have hopens' := Lexicon.opensLineComment_append hm hopens hl
    have hblock' := Lexicon.opensBlock_append hm hblock ho
    have htext : c :: line ++ tail ++ b = c :: (line ++ more) ++ tail' := by simp [hb]
    have hrest : left ++ tail ++ b = left ++ more ++ tail' := by simp [hb]
    rw [htext, hrest]
    exact .inl (.literal hn' ht' hopens' hblock' (Lexicon.takeLiteral_append_right htake more))
  | @code c line tail hn ht hopens hblock htake =>
    obtain ⟨more, tail', hb, hn', ht', hm⟩ := exists_line_append hn ht b
    have hopens' := Lexicon.opensLineComment_append hm hopens hl
    have hblock' := Lexicon.opensBlock_append hm hblock ho
    have htext : c :: line ++ tail ++ b = c :: (line ++ more) ++ tail' := by simp [hb]
    have hrest : line ++ tail ++ b = line ++ more ++ tail' := by simp [hb]
    rw [htext, hrest]
    cases htake' : lexicon.takeLiteral c (line ++ more) with
    | none => exact .inl (.code hn' ht' hopens' hblock' htake')
    | some found =>
      exact .inr (.inr ⟨_, _, _, .literal hn' ht' hopens' hblock' htake',
        Lexicon.isComment_of_takeLiteral htake',
        Lexicon.prefix_of_takeLiteral_append hm htake htake'⟩)

/-! ## Stretches clear of comments -/

/-- No comment of a text that starts at `offset` overlaps the bytes from `start` up to `stop`. -/
def CommentFree (offset : Nat) (pieces : List Piece) (start stop : Nat) : Prop :=
  ∀ s ∈ segmentsFrom offset pieces, s.kind.isComment = true →
    ¬ (start < s.span.stop ∧ s.span.start < stop)

namespace CommentFree
variable {offset start stop : Nat} {pieces : List Piece}

theorem of_le (h : stop ≤ offset) : CommentFree offset pieces start stop := by
  intro s hs _ hover
  have := (le_of_mem_segmentsFrom hs).1
  omega

theorem cons_iff {piece : Piece} : CommentFree offset (piece :: pieces) start stop ↔
    (piece.isComment = true → ¬ (start < offset + byteLength piece.text ∧ offset < stop)) ∧
      CommentFree (offset + byteLength piece.text) pieces start stop := by
  cases piece with
  | code c => simp [CommentFree, segmentsFrom, Piece.isComment, Piece.text]
  | marked kind text => simp [CommentFree, segmentsFrom, Piece.isComment, Piece.text]

/-- A stretch of a text that no comment overlaps stays so when more follows the text, unless a
marker starts with what is left of the text from some place before the end of the stretch. -/
theorem append (hc : lexicon.blockClose ≠ "") {a : List Char} (b : List Char) (hlt : start < stop)
    (hle : stop ≤ offset + byteLength a)
    (hl : ∀ u v, a = u ++ v → offset + byteLength u < stop → ¬ v <+: lexicon.lineComment.toList)
    (ho : ∀ u v, a = u ++ v → offset + byteLength u < stop → ¬ v <+: lexicon.blockOpen.toList)
    (h : CommentFree offset (scanText lexicon a).pieces start stop) :
    CommentFree offset (scanText lexicon (a ++ b)).pieces start stop := by
  induction hn : a.length using Nat.strongRecOn generalizing a offset with
  | ind n ih =>
    subst hn
    by_cases hstop : stop ≤ offset
    · exact of_le hstop
    rcases step_cases lexicon a with rfl | hu | ⟨piece, rest, hs⟩
    · simp only [byteLength_nil] at hle
      omega
    · -- the stretch would lie in the comment that is left open
      rw [hu.scanText, cons_iff] at h
      have := h.1 rfl
      simp only [Piece.text] at this
      omega
    · have htext := hs.text
      have hlen := congrArg byteLength htext
      rw [byteLength_append] at hlen
      rw [hs.scanText, LineScan.pieces_push, cons_iff] at h
      rcases hs.append hc (hl [] a rfl (by simpa using hstop)) (ho [] a rfl (by simpa using hstop)) b
        with hs' | ⟨hcomment, rfl⟩ | ⟨kind, literal, left, hs', hkind, more, hliteral⟩
      · rw [hs'.scanText, LineScan.pieces_push, cons_iff]
        refine ⟨h.1, ih rest.length hs.length_lt ?_ ?_ ?_ h.2 rfl⟩
        · omega
        · intro u v hv hu
          refine hl (piece.text ++ u) v (by rw [← htext, hv, List.append_assoc]) ?_
          rw [byteLength_append]
          omega
        · intro u v hv hu
          refine ho (piece.text ++ u) v (by rw [← htext, hv, List.append_assoc]) ?_
          rw [byteLength_append]
          omega
      · have := h.1 hcomment
        simp only [byteLength_nil] at hlen
        omega
      · have hlong := congrArg byteLength hliteral
        rw [byteLength_append] at hlong
        rw [hs'.scanText, LineScan.pieces_push, cons_iff]
        refine ⟨by simp [Piece.isComment, hkind], of_le ?_⟩
        simp only [Piece.text]
        omega

end CommentFree
end Graft.Scan
