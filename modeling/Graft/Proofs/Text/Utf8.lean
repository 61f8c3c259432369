import Graft.Text.Bytes

/-! # The bytes of a text -/
namespace Graft.Text

/-- The bytes of a text in UTF-8. -/
def utf8 (text : List Char) : List UInt8 :=
  text.flatMap String.utf8EncodeChar

@[simp] theorem utf8_nil : utf8 [] = [] := rfl

@[simp] theorem utf8_append (a b : List Char) : utf8 (a ++ b) = utf8 a ++ utf8 b :=
  List.flatMap_append

@[simp] theorem length_utf8 (text : List Char) : (utf8 text).length = byteLength text := by
  induction text with
  | nil => rfl
  | cons c text ih => simpa [utf8] using ih

/-- The bytes in which a string is stored. -/
def bytes (text : String) : List UInt8 :=
  text.toUTF8.data.toList

theorem bytes_ofList (text : List Char) : bytes (.ofList text) = utf8 text := by
  simp [bytes, List.utf8Encode, utf8]

theorem bytes_eq_utf8 (text : String) : bytes text = utf8 text.toList := by
  rw [← bytes_ofList, String.ofList_toList]

theorem fromUTF8?_eq_some_iff {stored : ByteArray} {text : String} :
    String.fromUTF8? stored = some text ↔ stored = text.toUTF8 := by
  unfold String.fromUTF8?
  constructor
  · intro h
    split at h
    · obtain rfl := Option.some.inj h
      rfl
    · cases h
  · rintro rfl
    exact dif_pos text.isValidUTF8

end Graft.Text
