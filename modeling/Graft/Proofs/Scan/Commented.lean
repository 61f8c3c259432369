import Graft.Proofs.Scan.Segments
import Graft.Proofs.Text.Utf8
import Graft.Scan.Strip

/-! # Bytes outside comments

A byte lies in a comment when a comment segment holds its offset.  The bytes of a list of
pieces that lie in none are the bytes that its pieces keep.
-/
namespace Graft.Scan
open Graft.Text

/-- Whether a comment among the segments holds a byte offset. -/
def inComment (segments : List Segment) (offset : Nat) : Bool :=
  segments.any fun s => s.kind.isComment && s.span.contains offset

@[simp] theorem inComment_nil (offset : Nat) : inComment [] offset = false := rfl

@[simp] theorem inComment_append (a b : List Segment) (offset : Nat) :
    inComment (a ++ b) offset = (inComment a offset || inComment b offset) :=
  List.any_append

@[simp] theorem inComment_cons (s : Segment) (rest : List Segment) (offset : Nat) :
    inComment (s :: rest) offset =
      (s.kind.isComment && s.span.contains offset || inComment rest offset) :=
  List.any_cons

/-- Segments that all end before an offset, or start behind it, do not hold it. -/
theorem inComment_eq_false {segments : List Segment} {offset : Nat}
    (h : ∀ s ∈ segments, s.span.stop ≤ offset ∨ offset < s.span.start) :
    inComment segments offset = false := by
  refine List.any_eq_false.mpr fun s hs hc => ?_
  have hin := Span.contains_iff.mp (Bool.and_eq_true_iff.mp hc).2
  have := h s hs
  omega

/-- The bytes, of which the first stands at an offset, that lie in no comment. -/
def uncommented (segments : List Segment) (offset : Nat) (bytes : List UInt8) : List UInt8 :=
  ((bytes.zipIdx offset).filter fun b => !inComment segments b.2).map Prod.fst

theorem uncommented_congr {a b : List Segment} {offset : Nat} {bytes : List UInt8}
    (h : ∀ i, offset ≤ i → i < offset + bytes.length → inComment a i = inComment b i) :
    uncommented a offset bytes = uncommented b offset bytes := by
  unfold uncommented
  congr 1
  apply List.filter_congr
  intro byte hb
  rw [h byte.2 (List.le_snd_of_mem_zipIdx hb) (List.snd_lt_add_of_mem_zipIdx hb)]

theorem uncommented_append (segments : List Segment) (offset : Nat) (a b : List UInt8) :
    uncommented segments offset (a ++ b) =
      uncommented segments offset a ++ uncommented segments (offset + a.length) b := by
  simp [uncommented, List.zipIdx_append]

/-- Where every byte is in a comment, none is left. -/
theorem uncommented_eq_nil {segments : List Segment} {offset : Nat} {bytes : List UInt8}
    (h : ∀ i, offset ≤ i → i < offset + bytes.length → inComment segments i = true) :
    uncommented segments offset bytes = [] := by
  rw [uncommented, List.map_eq_nil_iff, List.filter_eq_nil_iff]
  intro byte hb
  simp [h byte.2 (List.le_snd_of_mem_zipIdx hb) (List.snd_lt_add_of_mem_zipIdx hb)]

/-- Where no byte is in a comment, all are left. -/
theorem uncommented_eq_self {segments : List Segment} {offset : Nat} {bytes : List UInt8}
    (h : ∀ i, offset ≤ i → i < offset + bytes.length → inComment segments i = false) :
    uncommented segments offset bytes = bytes := by
  have hall : (bytes.zipIdx offset).filter (fun b => !inComment segments b.2) =
      bytes.zipIdx offset := by
    refine List.filter_eq_self.mpr fun byte hb => ?_
    simp [h byte.2 (List.le_snd_of_mem_zipIdx hb) (List.snd_lt_add_of_mem_zipIdx hb)]
  rw [uncommented, hall, List.zipIdx_map_fst]

/-- What a list of pieces keeps are its bytes outside comments. -/
theorem uncommented_segmentsFrom (offset : Nat) (pieces : List Piece) :
    uncommented (segmentsFrom offset pieces) offset (utf8 (pieces.flatMap Piece.text)) =
      utf8 (pieces.flatMap Piece.kept) := by
  induction pieces generalizing offset with
  | nil => rfl
  | cons piece rest ih =>
    have hsplit (i : Nat) : inComment (segmentsFrom offset (piece :: rest)) i =
        (piece.isComment && (decide (offset ≤ i) && decide (i < offset + byteLength piece.text)) ||
          inComment (segmentsFrom (offset + byteLength piece.text) rest) i) := by
      cases piece with
      | code c => simp [segmentsFrom, Piece.isComment, Piece.text]
      | marked kind text => rfl
    have hlater (i : Nat) (hi : i < offset + byteLength piece.text) :
        inComment (segmentsFrom (offset + byteLength piece.text) rest) i = false :=
      inComment_eq_false fun s hs => .inr (Nat.lt_of_lt_of_le hi (le_of_mem_segmentsFrom hs).1)
    have hfirst : uncommented (segmentsFrom offset (piece :: rest)) offset (utf8 piece.text) =
        utf8 piece.kept := by
      unfold Piece.kept
      split
      · next hp =>
        apply uncommented_eq_nil
        intro i hle hlt
        rw [length_utf8] at hlt
        simp [hsplit, hp, hle, hlt]
      · next hp =>
        apply uncommented_eq_self
        intro i hle hlt
        rw [length_utf8] at hlt
        simp [hsplit, hp, hlater i hlt]
    have hrest : uncommented (segmentsFrom offset (piece :: rest)) (offset + byteLength piece.text)
        (utf8 (rest.flatMap Piece.text)) = utf8 (rest.flatMap Piece.kept) := by
      rw [← ih]
      apply uncommented_congr
      intro i hle _
      have : ¬ i < offset + byteLength piece.text := by omega
      simp [hsplit, this]
    rw [List.flatMap_cons, List.flatMap_cons, utf8_append, utf8_append, uncommented_append,
      length_utf8, hfirst, hrest]

end Graft.Scan
