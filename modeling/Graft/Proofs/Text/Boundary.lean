import Graft.Proofs.Text.Occurrence
import Graft.Proofs.Text.Utf8

/-! # Occurrences in the bytes of a text

A needle occurs where its bytes stand among the bytes of a text.  The first byte of a character
is never a later byte of another one, so such a place always lies between two characters, and
so does its end: the occurrences among the bytes are the places among the characters.
-/
namespace Graft.Text

/-- The offset lies between two characters of the text, or at one of its ends. -/
def IsBoundary (text : String) (offset : Nat) : Prop :=
  (⟨offset⟩ : String.Pos.Raw).IsValid text

/-- The bytes of the needle stand in the text at a byte offset. -/
def OccursAt (needle text : String) (offset : Nat) : Prop :=
  bytes needle <+: (bytes text).drop offset

theorem bytes_append (a b : String) : bytes (a ++ b) = bytes a ++ bytes b := by
  simp [bytes_eq_utf8]

theorem length_bytes (text : String) : (bytes text).length = text.utf8ByteSize := by
  rw [bytes_eq_utf8, length_utf8, byteLength_toList]

theorem bytes_inj {a b : String} (h : bytes a = bytes b) : a = b := by
  rw [← String.toByteArray_inj]
  exact ByteArray.ext (Array.toList_inj.mp h)

/-- At a boundary the text splits in two. -/
theorem isBoundary_iff {text : String} {offset : Nat} :
    IsBoundary text offset ↔ ∃ before after, text = before ++ after ∧
      offset = before.utf8ByteSize := by
  simp [IsBoundary, String.Pos.Raw.isValid_iff_exists_append, String.Pos.Raw.ext_iff]

theorem isBoundary_of_split {text : String} {before after : List Char}
    (h : text.toList = before ++ after) : IsBoundary text (byteLength before) := by
  refine isBoundary_iff.mpr ⟨.ofList before, .ofList after, ?_, byteLength_eq_utf8ByteSize before⟩
  rw [← String.ofList_append, ← h, String.ofList_toList]

/-- A text can be cut exactly at its boundaries. -/
theorem isSome_sliceFrom?_iff {text : String} {offset : Nat} :
    (sliceFrom? offset text.toList).isSome = true ↔ IsBoundary text offset := by
  rw [Option.isSome_iff_exists]
  constructor
  · rintro ⟨rest, h⟩
    obtain ⟨front, ht, rfl⟩ := sliceFrom?_eq_some_iff.mp h
    exact isBoundary_of_split ht
  · intro h
    obtain ⟨before, after, rfl, rfl⟩ := isBoundary_iff.mp h
    exact ⟨after.toList, sliceFrom?_eq_some_iff.mpr ⟨before.toList, by simp, by simp⟩⟩

theorem le_of_sliceFrom? {text : String} {rest : List Char} {offset : Nat}
    (h : sliceFrom? offset text.toList = some rest) : offset ≤ text.utf8ByteSize := by
  obtain ⟨front, ht, rfl⟩ := sliceFrom?_eq_some_iff.mp h
  rw [← byteLength_toList, ht, byteLength_append]
  exact Nat.le_add_right _ _

/-- The bytes of a text that start another text are that text's first characters. -/
theorem exists_append_of_prefix {a b : String} (h : bytes a <+: bytes b) : ∃ c, b = a ++ c := by
  obtain ⟨tail, ht⟩ := h
  have hsize : a.utf8ByteSize ≤ b.utf8ByteSize := by
    rw [← length_bytes, ← length_bytes b, ← ht, List.length_append]
    omega
  have htake : b.toByteArray.extract 0 a.utf8ByteSize = a.toByteArray := by
    apply ByteArray.ext
    apply Array.toList_inj.mp
    rw [ByteArray.data_extract, Array.toList_extract, List.extract_eq_take_drop]
    have hb : (bytes b).take a.utf8ByteSize = bytes a := by
      rw [← ht, ← length_bytes, List.take_left]
    simpa [bytes] using hb
  have hvalid : (b.toByteArray.extract 0 a.utf8ByteSize).IsValidUTF8 := htake ▸ a.isValidUTF8
  obtain ⟨before, after, rfl, hb⟩ := isBoundary_iff.mp
    (String.Pos.Raw.isValid_iff_isValidUTF8_extract_zero.mpr ⟨hsize, hvalid⟩ :
      IsBoundary b a.utf8ByteSize)
  refine ⟨after, ?_⟩
  rw [bytes_append] at ht
  rw [bytes_inj (List.append_inj_left ht (by simp [length_bytes, hb]))]

/-- A place starts with the first byte of a character, which no other byte can be taken for. -/
theorem isBoundary_of_occursAt {needle text : String} (hn : needle ≠ "") {offset : Nat}
    (h : OccursAt needle text offset) : IsBoundary text offset := by
  have hpos : 0 < (bytes needle).length := by
    rw [length_bytes]
    exact Nat.pos_of_ne_zero (mt String.utf8ByteSize_eq_zero_iff.mp hn)
  have hlt : offset < (bytes text).length := by
    have := h.length_le
    rw [List.length_drop] at this
    omega
  have hsame : (bytes needle)[0] = (bytes text)[offset] := by
    rw [h.getElem hpos]
    simp
  rw [length_bytes] at hpos hlt
  have hbyte : needle.getUTF8Byte 0 hpos = text.getUTF8Byte ⟨offset⟩ hlt := hsame
  have hfirst : (needle.getUTF8Byte 0 hpos).IsUTF8FirstByte :=
    String.isUTF8FirstByte_getUTF8Byte_zero
  exact String.Pos.Raw.isValid_iff_isUTF8FirstByte.mpr (.inr ⟨hlt, hbyte ▸ hfirst⟩)

theorem occursAt_iff_standsAt {needle text : String} (hn : needle ≠ "") {offset : Nat} :
    OccursAt needle text offset ↔ StandsAt needle.toList text.toList offset := by
  constructor
  · intro h
    obtain ⟨before, rest, rfl, rfl⟩ := isBoundary_iff.mp (isBoundary_of_occursAt hn h)
    have hdrop : (bytes (before ++ rest)).drop before.utf8ByteSize = bytes rest := by
      rw [bytes_append, ← length_bytes, List.drop_left]
    rw [OccursAt, hdrop] at h
    obtain ⟨after, rfl⟩ := exists_append_of_prefix h
    exact ⟨before.toList, after.toList, by simp, by simp⟩
  · rintro ⟨before, after, ht, rfl⟩
    rw [OccursAt, bytes_eq_utf8 text, ht, utf8_append, utf8_append, ← length_utf8, List.drop_left,
      bytes_eq_utf8]
    exact List.prefix_append _ _

theorem StandsAt.isBoundary {needle text : String} {offset : Nat}
    (h : StandsAt needle.toList text.toList offset) :
    IsBoundary text offset ∧ IsBoundary text (offset + needle.utf8ByteSize) := by
  obtain ⟨before, after, ht, rfl⟩ := h
  refine ⟨isBoundary_of_split ht, ?_⟩
  rw [← byteLength_toList needle, ← byteLength_append]
  exact isBoundary_of_split (ht.trans (List.append_assoc _ _ _).symm)

end Graft.Text
