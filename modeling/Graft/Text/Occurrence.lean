import Graft.Text.Bytes

/-! # Occurrences of one text in another

`occurrences` lists where a needle starts, overlapping places included, and `substitute`
replaces the places that a reader meets from left to right without overlap.  `takeThrough`
reads a text through the first place of a delimiter.
-/
namespace Graft.Text

/-- The byte offset at which `needle` starts for the first time. -/
def firstPlace? (needle : List Char) : List Char → Option Nat
  | [] => if needle.isEmpty then some 0 else none
  | c :: rest =>
    if needle.isPrefixOf (c :: rest) then some 0
    else (firstPlace? needle rest).map (c.utf8Size + ·)

/-- The byte offsets, from `offset` on, at which a needle with the given first character starts.
Places may overlap: behind each of them the search goes on where its first character ends. -/
def occurrencesFrom (first : Char) (more text : List Char) (offset : Nat) : List Nat :=
  if byteLength text < offset then []
  else
    match firstPlace? (first :: more) (dropBytes offset text) with
    | none => []
    | some distance =>
      (offset + distance) ::
        occurrencesFrom first more text (offset + distance + first.utf8Size)
  termination_by byteLength text + 1 - offset
  decreasing_by
    have := first.utf8Size_pos
    omega

/-- The byte offsets at which `needle` starts, in increasing order.  An empty needle
starts nowhere. -/
def occurrences (needle text : List Char) : List Nat :=
  match needle with
  | [] => []
  | first :: more => occurrencesFrom first more text 0

/-- Whether `needle` stands somewhere in the text.  An empty needle stands in every text. -/
def contains (needle : List Char) : List Char → Bool
  | [] => needle.isEmpty
  | c :: rest => needle.isPrefixOf (c :: rest) || contains needle rest

theorem contains_iff_infix {needle text : List Char} :
    contains needle text = true ↔ needle <:+: text := by
  induction text with
  | nil => simp [contains]
  | cons c rest ih => simp [contains, ih, List.infix_cons_iff]

/-- Replaces `old` by `new` in the text less its first `skip` characters, which belong to a
place already replaced. -/
def substituteFrom (old new : List Char) : Nat → List Char → List Char
  | _, [] => []
  | skip + 1, _ :: rest => substituteFrom old new skip rest
  | 0, c :: rest =>
    if old.isPrefixOf (c :: rest) then
      new ++ substituteFrom old new (old.length - 1) rest
    else
      c :: substituteFrom old new 0 rest

/-- Replaces each place of the non-empty text `old`, from left to right; what has been
inserted is not searched again. -/
def substitute (old new text : String) : String :=
  .ofList (substituteFrom old.toList new.toList 0 text.toList)

/-- Splits a non-empty text just behind the first place of `delimiter`. -/
def takeThrough (delimiter : List Char) : List Char → Option (List Char × List Char)
  | [] => none
  | c :: rest =>
    if delimiter.isPrefixOf (c :: rest) then
      some (delimiter, (c :: rest).drop delimiter.length)
    else
      (takeThrough delimiter rest).map fun (taken, left) => (c :: taken, left)

theorem takeThrough_append {delimiter text taken left : List Char}
    (h : takeThrough delimiter text = some (taken, left)) : taken ++ left = text := by
  induction text generalizing taken with
  | nil => simp [takeThrough] at h
  | cons c rest ih =>
    rw [takeThrough] at h
    split at h
    · next hp =>
      obtain ⟨tail, ht⟩ := List.isPrefixOf_iff_prefix.mp hp
      obtain ⟨rfl, rfl⟩ := by simpa using h
      rw [← ht]
      simp
    · obtain ⟨⟨t, l⟩, hr, he⟩ := Option.map_eq_some_iff.mp h
      obtain ⟨rfl, rfl⟩ := by simpa using he
      simp [ih hr]

theorem length_le_of_takeThrough {delimiter text taken left : List Char}
    (h : takeThrough delimiter text = some (taken, left)) :
    delimiter.length ≤ taken.length := by
  induction text generalizing taken with
  | nil => simp [takeThrough] at h
  | cons c rest ih =>
    rw [takeThrough] at h
    split at h
    · obtain ⟨rfl, rfl⟩ := by simpa using h
      exact Nat.le_refl _
    · obtain ⟨⟨t, l⟩, hr, he⟩ := Option.map_eq_some_iff.mp h
      obtain ⟨rfl, rfl⟩ := by simpa using he
      have := ih hr
      simp
      omega

end Graft.Text
