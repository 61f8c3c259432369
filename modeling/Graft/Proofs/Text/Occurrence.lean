import Graft.Text.Occurrence

/-! # Where a needle stands

The listed offsets are exactly those at which the text splits into something before the
needle, the needle and something behind it; they come in increasing order.  Going on behind the
first character of a place leaves none out, because another one starts there at the earliest.
-/
namespace Graft.Text

/-- The needle stands in the text at a byte offset. -/
def StandsAt (needle text : List Char) (start : Nat) : Prop :=
  ∃ before after, text = before ++ (needle ++ after) ∧ start = byteLength before

theorem standsAt_nil_iff {needle : List Char} {start : Nat} :
    StandsAt needle [] start ↔ needle = [] ∧ start = 0 := by
  constructor
  · rintro ⟨before, after, ht, rfl⟩
    obtain ⟨rfl, rfl, _⟩ := by simpa using ht
    exact ⟨rfl, rfl⟩
  · rintro ⟨rfl, rfl⟩
    exact ⟨[], [], rfl, rfl⟩

/-- A needle stands at the start of a text or behind its first character. -/
theorem standsAt_cons_iff {needle rest : List Char} {c : Char} {start : Nat} :
    StandsAt needle (c :: rest) start ↔
      (start = 0 ∧ needle <+: c :: rest) ∨
        ∃ s, start = c.utf8Size + s ∧ StandsAt needle rest s := by
  constructor
  · rintro ⟨before, after, ht, rfl⟩
    cases before with
    | nil => exact .inl ⟨rfl, after, ht.symm⟩
    | cons d before =>
      obtain ⟨rfl, rfl⟩ := List.cons.inj ht
      exact .inr ⟨byteLength before, rfl, before, after, rfl, rfl⟩
  · rintro (⟨rfl, after, ht⟩ | ⟨s, rfl, before, after, rfl, rfl⟩)
    · exact ⟨[], after, ht.symm, rfl⟩
    · exact ⟨c :: before, after, rfl, rfl⟩

/-- Behind the first part of a text stands what stands in the second. -/
theorem standsAt_append_iff {needle a b : List Char} {start : Nat} :
    StandsAt needle (a ++ b) (byteLength a + start) ↔ StandsAt needle b start := by
  induction a with
  | nil => simp
  | cons c a ih =>
    have hpos := c.utf8Size_pos
    rw [List.cons_append, standsAt_cons_iff, ← ih, byteLength_cons]
    constructor
    · rintro (⟨hz, _⟩ | ⟨s, hs, h⟩)
      · omega
      · rwa [show s = byteLength a + start by omega] at h
    · intro h
      exact .inr ⟨_, Nat.add_assoc _ _ _, h⟩

/-- The first place is a place, and none comes before it. -/
theorem firstPlace?_eq_some {needle text : List Char} {start : Nat}
    (h : firstPlace? needle text = some start) :
    StandsAt needle text start ∧ ∀ other, StandsAt needle text other → start ≤ other := by
  induction text generalizing start with
  | nil =>
    simp only [firstPlace?, List.isEmpty_iff, Option.ite_none_right_eq_some, Option.some.injEq] at h
    obtain ⟨rfl, rfl⟩ := h
    exact ⟨standsAt_nil_iff.mpr ⟨rfl, rfl⟩, fun _ _ => Nat.zero_le _⟩
  | cons c rest ih =>
    rw [firstPlace?] at h
    split at h
    · next hp =>
      cases h
      exact ⟨standsAt_cons_iff.mpr (.inl ⟨rfl, List.isPrefixOf_iff_prefix.mp hp⟩),
        fun _ _ => Nat.zero_le _⟩
    · next hp =>
      obtain ⟨s, hs, rfl⟩ := Option.map_eq_some_iff.mp h
      obtain ⟨hstands, hleast⟩ := ih hs
      refine ⟨standsAt_cons_iff.mpr (.inr ⟨s, rfl, hstands⟩), fun other ho => ?_⟩
      rcases standsAt_cons_iff.mp ho with ⟨_, hq⟩ | ⟨t, rfl, ht⟩
      · exact absurd (List.isPrefixOf_iff_prefix.mpr hq) hp
      · exact Nat.add_le_add_left (hleast t ht) _

theorem firstPlace?_eq_none {needle text : List Char} (h : firstPlace? needle text = none)
    (start : Nat) : ¬ StandsAt needle text start := by
  induction text generalizing start with
  | nil =>
    simp only [firstPlace?, List.isEmpty_iff, ite_eq_right_iff, reduceCtorEq, imp_false] at h
    exact fun hs => h (standsAt_nil_iff.mp hs).1
  | cons c rest ih =>
    rw [firstPlace?] at h
    split at h
    · cases h
    · next hp =>
      intro hs
      rcases standsAt_cons_iff.mp hs with ⟨_, hq⟩ | ⟨s, _, hs⟩
      · exact hp (List.isPrefixOf_iff_prefix.mpr hq)
      · exact ih (Option.map_eq_none_iff.mp h) s hs

/-- The first place of a needle, in front of which none stands. -/
theorem firstPlace?_of_least {needle before after : List Char}
    (h : ∀ start, StandsAt needle (before ++ (needle ++ after)) start →
      byteLength before ≤ start) :
    firstPlace? needle (before ++ (needle ++ after)) = some (byteLength before) := by
  have hplace : StandsAt needle (before ++ (needle ++ after)) (byteLength before) :=
    ⟨before, after, rfl, rfl⟩
  cases hf : firstPlace? needle (before ++ (needle ++ after)) with
  | none => exact absurd hplace (firstPlace?_eq_none hf _)
  | some start =>
    obtain ⟨hs, hleast⟩ := firstPlace?_eq_some hf
    rw [Nat.le_antisymm (hleast _ hplace) (h start hs)]

/-- From a place between two characters on, no place of the needle is left out. -/
theorem mem_occurrencesFrom {first : Char} {more before rest : List Char} {start : Nat} :
    start ∈ occurrencesFrom first more (before ++ rest) (byteLength before) ↔
      ∃ s, start = byteLength before + s ∧ StandsAt (first :: more) rest s := by
  generalize ht : before ++ rest = text
  generalize ho : byteLength before = offset
  fun_induction occurrencesFrom first more text offset generalizing before rest with
  | case1 offset hlt =>
    subst ht ho
    rw [byteLength_append] at hlt
    omega
  | case2 offset hle hnone =>
    subst ht ho
    rw [dropBytes_append] at hnone
    simp [firstPlace?_eq_none hnone]
  | case3 offset hle distance hsome ih =>
    subst ht ho
    rw [dropBytes_append] at hsome
    obtain ⟨⟨skip, after, rfl, rfl⟩, hleast⟩ := firstPlace?_eq_some hsome
    have hlater := @ih (before ++ (skip ++ [first])) (more ++ after) (by simp)
      (by simp [Nat.add_assoc])
    rw [List.mem_cons, hlater]
    constructor
    · rintro (rfl | ⟨s, rfl, hs⟩)
      · exact ⟨byteLength skip, rfl, skip, after, rfl, rfl⟩
      · refine ⟨byteLength (skip ++ [first]) + s, by simp [Nat.add_assoc], ?_⟩
        have hin := (standsAt_append_iff (a := skip ++ [first])).mpr hs
        simpa using hin
    · rintro ⟨s, rfl, hs⟩
      obtain ⟨t, rfl⟩ := Nat.exists_eq_add_of_le (hleast s hs)
      rcases standsAt_cons_iff.mp (standsAt_append_iff.mp hs) with ⟨rfl, _⟩ | ⟨u, rfl, hu⟩
      · exact .inl rfl
      · exact .inr ⟨u, by omega, hu⟩

/-- The offsets of a needle are the places where it stands. -/
theorem mem_occurrences {needle text : List Char} {start : Nat} :
    start ∈ occurrences needle text ↔ needle ≠ [] ∧ StandsAt needle text start := by
  cases needle with
  | nil => simp [occurrences]
  | cons first more =>
    have h := @mem_occurrencesFrom first more [] text start
    simpa [occurrences] using h

theorem le_of_mem_occurrencesFrom {first : Char} {more text : List Char} {offset start : Nat}
    (h : start ∈ occurrencesFrom first more text offset) : offset ≤ start := by
  fun_induction occurrencesFrom first more text offset with
  | case1 offset hlt => simp at h
  | case2 offset hle hnone => simp at h
  | case3 offset hle distance hsome ih =>
    rcases List.mem_cons.mp h with rfl | h
    · omega
    · have := ih h
      omega

theorem pairwise_occurrencesFrom (first : Char) (more text : List Char) (offset : Nat) :
    (occurrencesFrom first more text offset).Pairwise (· < ·) := by
  fun_induction occurrencesFrom first more text offset with
  | case1 offset hlt => exact .nil
  | case2 offset hle hnone => exact .nil
  | case3 offset hle distance hsome ih =>
    refine .cons (fun start h => ?_) ih
    have := le_of_mem_occurrencesFrom h
    have := first.utf8Size_pos
    omega

theorem pairwise_occurrences (needle text : List Char) :
    (occurrences needle text).Pairwise (· < ·) := by
  cases needle with
  | nil => exact .nil
  | cons first more => exact pairwise_occurrencesFrom first more text 0

/-- A place that ends within the first part of a text lies in that part. -/
theorem StandsAt.left {needle a b : List Char} {start : Nat} (h : StandsAt needle (a ++ b) start)
    (hle : start + byteLength needle ≤ byteLength a) : StandsAt needle a start := by
  obtain ⟨before, after, ht, rfl⟩ := h
  rw [← List.append_assoc] at ht
  rcases List.append_eq_append_iff.mp ht with ⟨more, hm, _⟩ | ⟨more, hm, _⟩
  · have hb := congrArg byteLength hm
    simp only [byteLength_append] at hb
    have hz : more = [] := byteLength_eq_zero_iff.mp (by omega)
    subst hz
    exact ⟨before, [], by simpa using hm.symm, rfl⟩
  · exact ⟨before, more, by simpa using hm, rfl⟩

end Graft.Text
