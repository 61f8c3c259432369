import Graft.Proofs.Text.Occurrence

/-! # What a substitution keeps

A substitution goes through a text from place to place of the replaced text.  What stands clear
of these places is kept, and nothing else is sure to be: to every needle there is a new text
that brings nothing of it in (`exists_foreign`), and what stands in the result then stood clear
of the places before (`standsClear_of_infix_substituteFrom`).
-/
namespace Graft.Text
variable {old new needle text : List Char}

/-- A stretch that holds no first character of the replaced text stays. -/
theorem substituteFrom_append {c : Char} {old new a : List Char} (h : c ∉ a) (b : List Char) :
    substituteFrom (c :: old) new 0 (a ++ b) = a ++ substituteFrom (c :: old) new 0 b := by
  induction a with
  | nil => rfl
  | cons d a ih =>
    obtain ⟨hd, ha⟩ := by simpa using h
    simp [substituteFrom, hd, ih ha]

/-- Where a text stands it is replaced, so the new text stands in the result. -/
theorem infix_substituteFrom {old new text : List Char} (ho : old ≠ []) (h : old <:+: text) :
    new <:+: substituteFrom old new 0 text := by
  induction text with
  | nil => exact absurd (List.infix_nil.mp h) ho
  | cons c rest ih =>
    rw [substituteFrom]
    split
    · exact List.infix_append' [] new _
    · next hp =>
      rcases List.infix_cons_iff.mp h with hp' | hr
      · exact absurd (List.isPrefixOf_iff_prefix.mpr hp') hp
      · exact List.infix_cons (ih hr)

/-- The rest of a place that has been replaced is passed over. -/
theorem substituteFrom_skip (skip : Nat) (text : List Char) :
    substituteFrom old new skip text = substituteFrom old new 0 (text.drop skip) := by
  induction skip generalizing text with
  | zero => rfl
  | succ skip ih =>
    cases text with
    | nil => simp [substituteFrom]
    | cons c rest => rw [substituteFrom, ih, List.drop_succ_cons]

theorem substituteFrom_place (ho : old ≠ []) (rest : List Char) :
    substituteFrom old new 0 (old ++ rest) = new ++ substituteFrom old new 0 rest := by
  obtain ⟨c, more, rfl⟩ := List.exists_cons_of_ne_nil ho
  rw [List.cons_append, substituteFrom, if_pos (by simp), substituteFrom_skip]
  simp

theorem substituteFrom_kept {c : Char} {rest : List Char} (h : ¬ old <+: c :: rest) :
    substituteFrom old new 0 (c :: rest) = c :: substituteFrom old new 0 rest := by
  rw [substituteFrom, if_neg (mt List.isPrefixOf_iff_prefix.mp h)]

/-- A substitution ends, or goes on behind a place, or behind a character that it keeps. -/
@[elab_as_elim]
theorem substitution_induction {motive : List Char → Prop} (ho : old ≠ []) (nil : motive [])
    (place : ∀ rest, motive rest → motive (old ++ rest))
    (kept : ∀ c rest, ¬ old <+: c :: rest → motive rest → motive (c :: rest))
    (text : List Char) : motive text := by
  induction hn : text.length using Nat.strongRecOn generalizing text with
  | ind n ih =>
    subst hn
    cases text with
    | nil => exact nil
    | cons c rest =>
      by_cases hp : old <+: c :: rest
      · obtain ⟨more, hm⟩ := hp
        rw [← hm]
        refine place more (ih _ ?_ more rfl)
        have := List.length_pos_iff.mpr ho
        rw [← hm, List.length_append]
        omega
      · exact kept c rest hp (ih _ (Nat.lt_succ_self _) rest rfl)

theorem substituteFrom_eq_self (ho : old ≠ []) (h : ¬ old <:+: text) :
    substituteFrom old new 0 text = text := by
  induction text using substitution_induction ho with
  | nil => rfl
  | place rest _ => exact absurd (List.prefix_append old rest).isInfix h
  | kept c rest hp ih => rw [substituteFrom_kept hp, ih fun hr => h (List.infix_cons hr)]

/-- The needle stands in the text clear of every place of the other text. -/
def StandsClear (needle other text : List Char) : Prop :=
  ∃ start, StandsAt needle text start ∧ ∀ place, StandsAt other text place →
    place + byteLength other ≤ start ∨ start + byteLength needle ≤ place

/-- The places to look at are listed. -/
theorem standsClear_iff {other : List Char} (hn : needle ≠ []) (ho : other ≠ []) :
    StandsClear needle other text ↔ ∃ start ∈ occurrences needle text,
      ∀ place ∈ occurrences other text,
        place + byteLength other ≤ start ∨ start + byteLength needle ≤ place := by
  simp [StandsClear, mem_occurrences, hn, ho]

theorem StandsClear.nil (other text : List Char) : StandsClear [] other text :=
  ⟨0, ⟨[], text, rfl, rfl⟩, fun _ _ => .inr (Nat.zero_le _)⟩

/-- What comes before the first place is kept. -/
theorem substituteFrom_before {a b : List Char}
    (h : ∀ place, StandsAt old (a ++ b) place → byteLength a ≤ place) :
    substituteFrom old new 0 (a ++ b) = a ++ substituteFrom old new 0 b := by
  induction a with
  | nil => rfl
  | cons c a ih =>
    have hpos := c.utf8Size_pos
    rw [List.cons_append, substituteFrom_kept, ih, List.cons_append]
    · intro place hp
      have := h _ (standsAt_cons_iff.mpr (.inr ⟨place, rfl, hp⟩))
      rw [byteLength_cons] at this
      omega
    · intro hp
      have := h 0 (standsAt_cons_iff.mpr (.inl ⟨rfl, hp⟩))
      rw [byteLength_cons] at this
      omega

/-- What stands clear of the places is kept. -/
theorem StandsClear.infix_substituteFrom (ho : old ≠ []) (h : StandsClear needle old text) :
    needle <:+: substituteFrom old new 0 text := by
  by_cases hn : needle = []
  · exact hn ▸ List.nil_infix
  have hneedle := Nat.pos_of_ne_zero (mt byteLength_eq_zero_iff.mp hn)
  have hold := Nat.pos_of_ne_zero (mt byteLength_eq_zero_iff.mp ho)
  induction text using substitution_induction ho with
  | nil =>
    obtain ⟨start, hs, -⟩ := h
    exact absurd (standsAt_nil_iff.mp hs).1 hn
  | place rest ih =>
    obtain ⟨start, hs, hclear⟩ := h
    have hle := hclear 0 ⟨[], rest, rfl, rfl⟩
    obtain ⟨s, rfl⟩ := Nat.exists_eq_add_of_le (show byteLength old ≤ start by omega)
    rw [substituteFrom_place ho]
    refine (ih ⟨s, standsAt_append_iff.mp hs, fun place hp => ?_⟩).trans
      (List.suffix_append _ _).isInfix
    have := hclear _ (standsAt_append_iff.mpr hp)
    omega
  | kept c rest hk ih =>
    obtain ⟨start, hs, hclear⟩ := h
    rcases standsAt_cons_iff.mp hs with ⟨rfl, b, hb⟩ | ⟨s, rfl, hrest⟩
    · rw [← hb] at hclear ⊢
      rw [substituteFrom_before fun place hp => by have := hclear place hp; omega]
      exact (List.prefix_append _ _).isInfix
    · rw [substituteFrom_kept hk]
      refine List.infix_cons (ih ⟨s, hrest, fun place hp => ?_⟩)
      have := hclear _ (standsAt_cons_iff.mpr (.inr ⟨place, rfl, hp⟩))
      omega

/-! ## Texts that bring nothing in -/

/-- A text that no place of the needle reaches into, from in front of it or from behind. -/
structure Foreign (needle new : List Char) : Prop where
  ending : ∀ last rest, last <:+ needle → last <+: new ++ rest → last = []
  behind : ∀ rest, needle <:+: new ++ rest → needle <:+: rest

theorem foreign_replicate {x : Char} {n : Nat} (hh : needle.head? ≠ some x)
    (hl : needle.getLast? ≠ some x) (hn : needle.length ≤ n) :
    Foreign needle (List.replicate n x) where
  ending := by
    intro last rest hs hp
    have hle : last.length ≤ (List.replicate n x).length := by
      have := hs.length_le
      rw [List.length_replicate]
      omega
    have hall := List.prefix_of_prefix_length_le hp (List.prefix_append _ rest) hle
    by_cases hne : last = []
    · exact hne
    · obtain ⟨before, rfl⟩ := hs
      have hx := List.eq_of_mem_replicate (hall.subset (List.getLast_mem hne))
      simp [List.getLast?_append, List.getLast?_eq_some_getLast hne, hx] at hl
  behind := by
    clear hn
    intro rest h
    induction n with
    | zero => simpa using h
    | succ n ih =>
      rw [List.replicate_succ, List.cons_append] at h
      rcases List.infix_cons_iff.mp h with hp | hi
      · cases needle with
        | nil => exact List.nil_infix
        | cons c needle =>
          obtain ⟨rfl, -⟩ := List.cons_prefix_cons.mp hp
          simp at hh
      · exact ih hi

/-- Every needle has a foreign text of any length above its own, made of one letter. -/
theorem exists_foreign (needle : List Char) {n : Nat} (hn : needle.length ≤ n) :
    ∃ x ∈ ['a', 'b', 'c'], Foreign needle (List.replicate n x) := by
  have hx : ∃ x ∈ ['a', 'b', 'c'], needle.head? ≠ some x ∧ needle.getLast? ≠ some x := by
    generalize needle.head? = first
    generalize needle.getLast? = last
    by_cases ha : first = some 'a' ∨ last = some 'a'
    · by_cases hb : first = some 'b' ∨ last = some 'b'
      · exact ⟨'c', by simp, by grind⟩
      · exact ⟨'b', by simp, not_or.mp hb⟩
    · exact ⟨'a', by simp, not_or.mp ha⟩
  obtain ⟨x, hm, hh, hl⟩ := hx
  exact ⟨x, hm, foreign_replicate hh hl hn⟩

/-- Where the new text is foreign, what starts the result starts the text, in front of the first
place. -/
theorem prefix_of_prefix_substituteFrom (ho : old ≠ []) (hf : Foreign needle new)
    {last : List Char} (hs : last <:+ needle) (h : last <+: substituteFrom old new 0 text) :
    last <+: text ∧ ∀ place, StandsAt old text place → byteLength last ≤ place := by
  induction text using substitution_induction ho generalizing last with
  | nil =>
    obtain rfl := List.prefix_nil.mp h
    exact ⟨List.nil_prefix, fun _ _ => Nat.zero_le _⟩
  | place rest ih =>
    rw [substituteFrom_place ho] at h
    obtain rfl := hf.ending _ _ hs h
    exact ⟨List.nil_prefix, fun _ _ => Nat.zero_le _⟩
  | kept c rest hk ih =>
    rw [substituteFrom_kept hk] at h
    cases last with
    | nil => exact ⟨List.nil_prefix, fun _ _ => Nat.zero_le _⟩
    | cons d last =>
      obtain ⟨rfl, hp⟩ := List.cons_prefix_cons.mp h
      obtain ⟨hp, hafter⟩ := ih ((List.suffix_cons d last).trans hs) hp
      refine ⟨List.cons_prefix_cons.mpr ⟨rfl, hp⟩, fun place hplace => ?_⟩
      rcases standsAt_cons_iff.mp hplace with ⟨-, ho⟩ | ⟨s, rfl, hs⟩
      · exact absurd ho hk
      · exact Nat.add_le_add_left (hafter s hs) _

/-- Behind its first character a text holds no place of a needle whose first character is not
there. -/
theorem standsAt_append_cons {x y : Char} {more other rest : List Char} (hx : x ∉ other)
    {place : Nat} (h : StandsAt (x :: more) (y :: other ++ rest) place) :
    place = 0 ∨ byteLength (y :: other) ≤ place := by
  obtain ⟨before, after, ht, rfl⟩ := h
  cases before with
  | nil => exact .inl rfl
  | cons c before =>
    rw [List.cons_append, List.cons_append, List.cons.injEq] at ht
    rcases List.append_eq_append_iff.mp ht.2 with ⟨behind, rfl, -⟩ | ⟨behind, rfl, hrest⟩
    · exact .inr (by simp [ht.1])
    · cases behind with
      | nil => exact .inr (by simp [ht.1])
      | cons d behind =>
        obtain ⟨rfl, -⟩ := List.cons.inj hrest
        simp at hx

/-- Where the new text is foreign, what stands in the result stood clear of the places. -/
theorem standsClear_of_infix_substituteFrom {x : Char} {old : List Char} (hx : x ∉ old)
    (hf : Foreign needle new) (h : needle <:+: substituteFrom (x :: old) new 0 text) :
    StandsClear needle (x :: old) text := by
  have ho : x :: old ≠ [] := List.cons_ne_nil x old
  induction text using substitution_induction ho with
  | nil =>
    obtain rfl := List.infix_nil.mp h
    exact .nil _ _
  | place rest ih =>
    rw [substituteFrom_place ho] at h
    obtain ⟨start, hs, hclear⟩ := ih (hf.behind _ h)
    refine ⟨_, standsAt_append_iff.mpr hs, fun place hp => ?_⟩
    rcases standsAt_append_cons hx hp with rfl | hle
    · exact .inl (by omega)
    · obtain ⟨p, rfl⟩ := Nat.exists_eq_add_of_le hle
      have := hclear p (standsAt_append_iff.mp hp)
      omega
  | kept c rest hk ih =>
    rw [substituteFrom_kept hk] at h
    rcases List.infix_cons_iff.mp h with hp | hi
    · rw [← substituteFrom_kept hk] at hp
      obtain ⟨⟨after, ht⟩, hafter⟩ :=
        prefix_of_prefix_substituteFrom ho hf (List.suffix_refl needle) hp
      refine ⟨0, ⟨[], after, ht.symm, rfl⟩, fun place hplace => .inr ?_⟩
      simpa using hafter place hplace
    · obtain ⟨start, hs, hclear⟩ := ih hi
      refine ⟨_, standsAt_cons_iff.mpr (.inr ⟨start, rfl, hs⟩), fun place hplace => ?_⟩
      rcases standsAt_cons_iff.mp hplace with ⟨-, hp⟩ | ⟨p, rfl, hp⟩
      · exact absurd hp hk
      · have := hclear p hp
        omega

end Graft.Text
