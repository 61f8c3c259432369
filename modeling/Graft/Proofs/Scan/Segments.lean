import Graft.Proofs.Scan.Lines

/-! # Segments of a list of pieces

Where the marked pieces of a text lie: one behind the other, each as long as its text, and
never across an offset between two pieces.
-/
namespace Graft.Scan
open Graft.Text

/-- Segments that hold at least a byte each and come one behind the other. -/
structure Placed (segments : List Segment) : Prop where
  start_lt : ∀ s ∈ segments, s.span.start < s.span.stop
  ordered : segments.Pairwise fun a b => a.span.stop ≤ b.span.start

/-- A segment is a marked piece with the bytes in front of it. -/
theorem mem_segmentsFrom {segment : Segment} {offset : Nat} {pieces : List Piece} :
    segment ∈ segmentsFrom offset pieces ↔
      ∃ before text after, pieces = before ++ .marked segment.kind text :: after ∧
        segment.span.start = offset + byteLength (before.flatMap Piece.text) ∧
        segment.span.stop = segment.span.start + byteLength text := by
  induction pieces generalizing offset with
  | nil => simp [segmentsFrom]
  | cons piece pieces ih =>
    have hcons : (∃ before text after,
          piece :: pieces = before ++ .marked segment.kind text :: after ∧
            segment.span.start = offset + byteLength (before.flatMap Piece.text) ∧
            segment.span.stop = segment.span.start + byteLength text) ↔
        (∃ text, piece = .marked segment.kind text ∧ segment.span.start = offset ∧
            segment.span.stop = segment.span.start + byteLength text) ∨
          segment ∈ segmentsFrom (offset + byteLength piece.text) pieces := by
      rw [ih]
      constructor
      · rintro ⟨before, text, after, hp, hs, he⟩
        cases before with
        | nil => exact .inl ⟨text, by simpa using (List.cons.inj hp).1, by simpa using hs, he⟩
        | cons first before =>
          obtain ⟨rfl, hq⟩ := List.cons.inj hp
          exact .inr ⟨before, text, after, hq, by simpa [Nat.add_assoc] using hs, he⟩
      · rintro (⟨text, hp, hs, he⟩ | ⟨before, text, after, hp, hs, he⟩)
        · exact ⟨[], text, pieces, by simp [hp], by simpa using hs, he⟩
        · exact ⟨piece :: before, text, after, by simp [hp], by simpa [Nat.add_assoc] using hs, he⟩
    rw [hcons]
    cases piece with
    | code c => simp [segmentsFrom, Piece.text]
    | marked kind text =>
      obtain ⟨k, start, stop⟩ := segment
      simp only [segmentsFrom, List.mem_cons, Piece.text]
      refine or_congr_left ?_
      constructor
      · intro h
        obtain ⟨rfl, rfl, rfl⟩ := by simpa using h
        exact ⟨text, rfl, rfl, rfl⟩
      · rintro ⟨text', hp, rfl, rfl⟩
        obtain ⟨rfl, rfl⟩ := by simpa using hp
        rfl

theorem le_of_mem_segmentsFrom {segment : Segment} {offset : Nat} {pieces : List Piece}
    (h : segment ∈ segmentsFrom offset pieces) :
    offset ≤ segment.span.start ∧
      segment.span.stop ≤ offset + byteLength (pieces.flatMap Piece.text) := by
  obtain ⟨before, text, after, rfl, hs, he⟩ := mem_segmentsFrom.mp h
  simp only [List.flatMap_append, List.flatMap_cons, byteLength_append, Piece.text]
  omega

theorem placed_segmentsFrom (offset : Nat) {pieces : List Piece}
    (h : ∀ piece ∈ pieces, piece.text ≠ []) : Placed (segmentsFrom offset pieces) := by
  constructor
  · intro segment hs
    obtain ⟨before, text, after, rfl, _, he⟩ := mem_segmentsFrom.mp hs
    have ht : text ≠ [] := h (.marked segment.kind text) (by simp)
    have := length_le_byteLength text
    have := List.length_pos_iff.mpr ht
    omega
  · induction pieces generalizing offset with
    | nil => exact .nil
    | cons piece pieces ih =>
      have hrest := fun offset => ih offset fun p hp => h p (List.mem_cons_of_mem piece hp)
      cases piece with
      | code c => exact hrest _
      | marked kind text =>
        exact .cons (fun later hl => (le_of_mem_segmentsFrom hl).1) (hrest _)

theorem segmentsFrom_add (offset distance : Nat) (pieces : List Piece) :
    segmentsFrom (offset + distance) pieces =
      (segmentsFrom offset pieces).map (·.shift distance) := by
  induction pieces generalizing offset with
  | nil => rfl
  | cons piece pieces ih =>
    cases piece with
    | code c => simp only [segmentsFrom, ← ih, Nat.add_right_comm]
    | marked kind text =>
      simp only [segmentsFrom, List.map_cons, ← ih, Nat.add_right_comm]
      simp [Segment.shift, Span.shift, Nat.add_right_comm]

/-- At an offset that lies inside no segment the text splits between two pieces. -/
theorem exists_split_pieces {pieces : List Piece} {a b : List Char} {offset : Nat}
    (ht : pieces.flatMap Piece.text = a ++ b)
    (h : ∀ s ∈ segmentsFrom offset pieces,
      ¬ (s.span.start < offset + byteLength a ∧ offset + byteLength a < s.span.stop)) :
    ∃ before after, pieces = before ++ after ∧ before.flatMap Piece.text = a ∧
      after.flatMap Piece.text = b := by
  induction pieces generalizing a offset with
  | nil =>
    obtain ⟨rfl, rfl⟩ := by simpa using ht
    exact ⟨[], [], rfl, rfl, rfl⟩
  | cons piece pieces ih =>
    by_cases ha : a = []
    · subst ha
      exact ⟨[], piece :: pieces, rfl, rfl, ht⟩
    have hrec {r : List Char} (he : a = piece.text ++ r)
        (hs : ∀ s ∈ segmentsFrom (offset + byteLength piece.text) pieces,
          s ∈ segmentsFrom offset (piece :: pieces)) :
        ∃ before after, piece :: pieces = before ++ after ∧ before.flatMap Piece.text = a ∧
          after.flatMap Piece.text = b := by
      subst he
      obtain ⟨before, after, rfl, rfl, rfl⟩ := @ih r (offset + byteLength piece.text)
        (by simpa using ht) (fun s hm => by simpa [Nat.add_assoc] using h s (hs s hm))
      exact ⟨piece :: before, after, rfl, rfl, rfl⟩
    cases piece with
    | code c =>
      obtain ⟨x, a', rfl⟩ := List.exists_cons_of_ne_nil ha
      obtain ⟨rfl, _⟩ := by simpa [Piece.text] using ht
      exact hrec rfl (by simp [segmentsFrom, Piece.text])
    | marked kind text =>
      rw [List.flatMap_cons, Piece.text] at ht
      rcases List.append_eq_append_iff.mp ht with ⟨a', rfl, _⟩ | ⟨more, rfl, hm⟩
      · exact hrec rfl (by simp +contextual [segmentsFrom, Piece.text])
      · -- the offset would lie inside this piece
        have hc := h ⟨kind, offset, offset + byteLength (a ++ more)⟩ (by simp [segmentsFrom])
        have := List.length_pos_iff.mpr ha
        have := length_le_byteLength a
        simp only [byteLength_append, not_and, Nat.not_lt] at hc
        have hz : more = [] := by
          rw [← byteLength_eq_zero_iff]
          have := hc (by omega)
          omega
        subst hz
        exact hrec (r := []) (by simp [Piece.text]) (by simp +contextual [segmentsFrom, Piece.text])

end Graft.Scan
