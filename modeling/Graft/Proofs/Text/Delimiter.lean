import Graft.Text.Occurrence

/-! # Reading through a delimiter in a longer text

What stands behind the first place of a delimiter does not matter to `takeThrough`, and a
delimiter without newlines is never found across one.
-/
namespace Graft.Text

/-- A text without the character `x` that starts `a ++ x :: b` lies within `a`. -/
theorem prefix_of_prefix_append_cons {α : Type} {x : α} {d a b : List α} (hx : x ∉ d)
    (h : d <+: a ++ x :: b) : d <+: a := by
  obtain ⟨tail, ht⟩ := h
  rcases List.append_eq_append_iff.mp ht with ⟨more, rfl, _⟩ | ⟨more, rfl, hm⟩
  · exact List.prefix_append d more
  · cases more with
    | nil => simp
    | cons y more =>
      obtain ⟨rfl, _⟩ := by simpa using hm
      simp at hx

/-- A text without the character `x` stands in `a ++ x :: b` only on one side of it. -/
theorem infix_append_cons {α : Type} {x : α} {d a b : List α} (hx : x ∉ d)
    (h : d <:+: a ++ x :: b) : d <:+: a ∨ d <:+: b := by
  obtain ⟨s, t, ht⟩ := h
  rw [List.append_assoc] at ht
  rcases List.append_eq_append_iff.mp ht with ⟨more, rfl, hm⟩ | ⟨more, rfl, hm⟩
  · obtain ⟨tail, rfl⟩ := prefix_of_prefix_append_cons hx ⟨t, hm⟩
    exact .inl ⟨s, tail, by simp⟩
  · cases more with
    | nil =>
      have hp := prefix_of_prefix_append_cons (a := []) hx ⟨t, hm.symm⟩
      obtain rfl := List.prefix_nil.mp hp
      exact .inl (List.nil_infix)
    | cons y more =>
      obtain ⟨rfl, rfl⟩ := by simpa using hm
      exact .inr ⟨more, t, by simp⟩

/-- What is taken ends with the delimiter. -/
theorem suffix_of_takeThrough {delimiter text taken left : List Char}
    (h : takeThrough delimiter text = some (taken, left)) : delimiter <:+ taken := by
  induction text generalizing taken with
  | nil => simp [takeThrough] at h
  | cons c rest ih =>
    rw [takeThrough] at h
    split at h
    · obtain ⟨rfl, _⟩ := by simpa using h
      exact List.suffix_refl _
    · obtain ⟨⟨t, l⟩, hr, he⟩ := Option.map_eq_some_iff.mp h
      obtain ⟨rfl, rfl⟩ := by simpa using he
      exact (ih hr).trans (List.suffix_cons c t)

/-- The part that is taken fixes where the reading stops, whatever follows it. -/
theorem takeThrough_taken {delimiter text taken left : List Char} (hd : delimiter ≠ [])
    (h : takeThrough delimiter text = some (taken, left)) (more : List Char) :
    takeThrough delimiter (taken ++ more) = some (taken, more) := by
  induction text generalizing taken with
  | nil => simp [takeThrough] at h
  | cons c rest ih =>
    rw [takeThrough] at h
    split at h
    · obtain ⟨rfl, _⟩ := by simpa using h
      obtain ⟨x, d, rfl⟩ := List.exists_cons_of_ne_nil hd
      simp [takeThrough]
    · next hp =>
      obtain ⟨⟨t, l⟩, hr, he⟩ := Option.map_eq_some_iff.mp h
      obtain ⟨rfl, rfl⟩ := by simpa using he
      have hn : ¬ delimiter <+: c :: (t ++ more) := by
        intro hq
        have hl := length_le_of_takeThrough hr
        have ht : delimiter <+: c :: t :=
          List.prefix_of_prefix_length_le hq (List.prefix_append (c :: t) more) (by simp; omega)
        apply hp
        rw [List.isPrefixOf_iff_prefix, ← takeThrough_append hr]
        exact ht.trans (List.prefix_append (c :: t) l)
      rw [List.cons_append, takeThrough, if_neg (by simpa using hn), ih hr]
      rfl

theorem takeThrough_append_right {delimiter text taken left : List Char} (hd : delimiter ≠ [])
    (h : takeThrough delimiter text = some (taken, left)) (more : List Char) :
    takeThrough delimiter (text ++ more) = some (taken, left ++ more) := by
  rw [← takeThrough_append h, List.append_assoc]
  exact takeThrough_taken hd h _

/-- A delimiter that is missing before a newline is looked for behind it. -/
theorem takeThrough_append_newline {delimiter text : List Char} (hd : delimiter ≠ [])
    (hn : '\n' ∉ delimiter) (h : takeThrough delimiter text = none) (more : List Char) :
    takeThrough delimiter (text ++ '\n' :: more) =
      (takeThrough delimiter more).map fun (taken, left) => (text ++ '\n' :: taken, left) := by
  induction text with
  | nil =>
    have hp : ¬ delimiter <+: '\n' :: more := by
      intro hq
      exact hd (List.prefix_nil.mp (prefix_of_prefix_append_cons (a := []) hn hq))
    rw [List.nil_append, takeThrough, if_neg (by simpa using hp)]
    rfl
  | cons c rest ih =>
    rw [takeThrough] at h
    split at h
    · cases h
    · next hp =>
      have hq : ¬ delimiter <+: c :: (rest ++ '\n' :: more) := fun hq =>
        hp (List.isPrefixOf_iff_prefix.mpr (prefix_of_prefix_append_cons (a := c :: rest) hn hq))
      rw [List.cons_append, takeThrough, if_neg (by simpa using hq),
        ih (Option.map_eq_none_iff.mp h), Option.map_map]
      rfl

/-- One character is found exactly where it stands. -/
theorem takeThrough_singleton_eq_none_iff {c : Char} {text : List Char} :
    takeThrough [c] text = none ↔ c ∉ text := by
  induction text with
  | nil => simp [takeThrough]
  | cons d rest ih =>
    by_cases h : c = d <;> simp [takeThrough, h, ih]

theorem takeThrough_singleton {c : Char} {text : List Char} (h : c ∉ text) (more : List Char) :
    takeThrough [c] (text ++ c :: more) = some (text ++ [c], more) := by
  induction text with
  | nil => simp [takeThrough]
  | cons d rest ih =>
    obtain ⟨hd, hr⟩ := by simpa using h
    simp [takeThrough, hd, ih hr]

/-- Reading goes on through the first place of the delimiter. -/
theorem takeThrough_of_firstPlace? {delimiter a more : List Char} (hd : delimiter ≠ [])
    (h : firstPlace? delimiter (a ++ (delimiter ++ more)) = some (byteLength a)) :
    takeThrough delimiter (a ++ (delimiter ++ more)) = some (a ++ delimiter, more) := by
  induction a with
  | nil =>
    obtain ⟨x, d, rfl⟩ := List.exists_cons_of_ne_nil hd
    simp [takeThrough]
  | cons c a ih =>
    have hpos := c.utf8Size_pos
    rw [List.cons_append, firstPlace?] at h
    split at h
    · simp only [byteLength_cons, Option.some.injEq] at h
      omega
    · next hp =>
      obtain ⟨start, hs, he⟩ := Option.map_eq_some_iff.mp h
      obtain rfl : start = byteLength a := by
        rw [byteLength_cons] at he
        omega
      rw [List.cons_append, takeThrough, if_neg hp, ih hs]
      rfl

/-- What has no place for the delimiter is not read through it. -/
theorem takeThrough_of_firstPlace?_eq_none {delimiter text : List Char}
    (h : firstPlace? delimiter text = none) : takeThrough delimiter text = none := by
  induction text with
  | nil => rfl
  | cons c rest ih =>
    rw [firstPlace?] at h
    split at h
    · cases h
    · next hp =>
      rw [takeThrough, if_neg hp, ih (Option.map_eq_none_iff.mp h)]
      rfl

/-- Reading through a delimiter takes what stands in front of its first place and the delimiter
itself, also where that is empty. -/
theorem exists_takeThrough {delimiter text : List Char} (hne : text ≠ []) {distance : Nat}
    (h : firstPlace? delimiter text = some distance) :
    ∃ taken left, takeThrough delimiter text = some (taken, left) ∧
      byteLength taken = distance + byteLength delimiter := by
  induction text generalizing distance with
  | nil => contradiction
  | cons c rest ih =>
    rw [firstPlace?] at h
    rw [takeThrough]
    split at h
    · next hp =>
      cases h
      exact ⟨delimiter, (c :: rest).drop delimiter.length, if_pos hp, (Nat.zero_add _).symm⟩
    · next hp =>
      obtain ⟨start, hs, rfl⟩ := Option.map_eq_some_iff.mp h
      have hrest : rest ≠ [] := by
        rintro rfl
        simp only [firstPlace?, List.isEmpty_iff, Option.ite_none_right_eq_some] at hs
        simp [hs.1] at hp
      obtain ⟨taken, left, ht, hsize⟩ := ih hrest hs
      refine ⟨c :: taken, left, by rw [if_neg hp, ht]; rfl, ?_⟩
      rw [byteLength_cons, hsize, Nat.add_assoc]

end Graft.Text
