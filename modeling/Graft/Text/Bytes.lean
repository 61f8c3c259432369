/-! # Byte measures of text

A text is a list of characters; offsets and lengths count the bytes of its UTF-8 form.
`takeBytes` and `dropBytes` cut a text at a byte offset: nothing is lost
(`takeBytes_append_dropBytes`), and a cut at the end of a part gives back that part
(`takeBytes_append`, `dropBytes_append`).  `sliceFrom?` refuses a cut anywhere else.
-/
namespace Graft.Text

/-- The number of bytes that a text takes in UTF-8. -/
def byteLength : List Char → Nat
  | [] => 0
  | c :: rest => c.utf8Size + byteLength rest

@[simp] theorem byteLength_nil : byteLength [] = 0 := rfl

@[simp] theorem byteLength_cons (c : Char) (rest : List Char) :
    byteLength (c :: rest) = c.utf8Size + byteLength rest := rfl

@[simp] theorem byteLength_append (a b : List Char) :
    byteLength (a ++ b) = byteLength a + byteLength b := by
  induction a with
  | nil => simp
  | cons c a ih => simp [ih, Nat.add_assoc]

theorem byteLength_eq_zero_iff {a : List Char} : byteLength a = 0 ↔ a = [] := by
  cases a with
  | nil => simp
  | cons c a => have := c.utf8Size_pos; simp; omega

theorem length_le_byteLength (a : List Char) : a.length ≤ byteLength a := by
  induction a with
  | nil => simp
  | cons c a ih => have := c.utf8Size_pos; simp; omega

theorem byteLength_eq_utf8ByteSize (a : List Char) :
    byteLength a = (String.ofList a).utf8ByteSize := by
  induction a with
  | nil => simp [String.ofList_nil]
  | cons c a ih =>
    have split : String.ofList (c :: a) = String.ofList [c] ++ String.ofList a := by
      rw [← String.ofList_append]
      rfl
    rw [byteLength_cons, ih, split, String.utf8ByteSize_append, ← String.singleton_eq_ofList,
      String.utf8ByteSize_singleton]

@[simp] theorem byteLength_toList (s : String) : byteLength s.toList = s.utf8ByteSize := by
  rw [byteLength_eq_utf8ByteSize, String.ofList_toList]

/-- The characters that end at or before a byte offset. -/
def takeBytes (offset : Nat) : List Char → List Char
  | [] => []
  | c :: rest =>
    if c.utf8Size ≤ offset then c :: takeBytes (offset - c.utf8Size) rest else []

/-- What `takeBytes` leaves. -/
def dropBytes (offset : Nat) : List Char → List Char
  | [] => []
  | c :: rest =>
    if c.utf8Size ≤ offset then dropBytes (offset - c.utf8Size) rest else c :: rest

theorem takeBytes_append_dropBytes (offset : Nat) (text : List Char) :
    takeBytes offset text ++ dropBytes offset text = text := by
  induction text generalizing offset with
  | nil => rfl
  | cons c rest ih =>
    by_cases h : c.utf8Size ≤ offset <;> simp [takeBytes, dropBytes, h, ih]

@[simp] theorem takeBytes_zero (text : List Char) : takeBytes 0 text = [] := by
  cases text with
  | nil => rfl
  | cons c rest => have := c.utf8Size_pos; simp [takeBytes]; omega

@[simp] theorem dropBytes_zero (text : List Char) : dropBytes 0 text = text := by
  simpa using takeBytes_append_dropBytes 0 text

theorem takeBytes_append (a b : List Char) : takeBytes (byteLength a) (a ++ b) = a := by
  induction a with
  | nil => simp
  | cons c a ih => simp [takeBytes, ih]

theorem dropBytes_append (a b : List Char) : dropBytes (byteLength a) (a ++ b) = b := by
  induction a with
  | nil => simp
  | cons c a ih => simp [dropBytes, ih]

/-- The text from a byte offset on, unless the offset lies inside a character or behind the
end. -/
def sliceFrom? (offset : Nat) (text : List Char) : Option (List Char) :=
  if byteLength (takeBytes offset text) = offset then some (dropBytes offset text) else none

theorem sliceFrom?_eq_some_iff {offset : Nat} {text rest : List Char} :
    sliceFrom? offset text = some rest ↔
      ∃ front, text = front ++ rest ∧ offset = byteLength front := by
  constructor
  · intro h
    obtain ⟨hsize, hrest⟩ := by simpa [sliceFrom?] using h
    exact ⟨takeBytes offset text, by rw [← hrest, takeBytes_append_dropBytes], hsize.symm⟩
  · rintro ⟨front, rfl, rfl⟩
    simp [sliceFrom?, takeBytes_append, dropBytes_append]

end Graft.Text
