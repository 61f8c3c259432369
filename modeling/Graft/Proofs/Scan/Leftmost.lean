import Graft.Proofs.Scan.Search
import Graft.Proofs.Scan.WellFormed

/-! # Searches find the first place

A search tries the places of its needle from left to right and rejects those that overlap a
segment of a kind to avoid; it finds the overlap by bisection.  As segments are in order and
clear of one another, no place is rejected without reason and none is missed, so what a search
finds is the least place whose bytes keep clear of the segments to avoid.
-/
namespace Graft.Scan
open Graft.Text

/-- Of spans in order only the first that ends behind `start` has to be looked at. -/
theorem overlapsAny_eq_false_iff {spans : List Span} (hlt : ∀ s ∈ spans, s.start < s.stop)
    (hord : spans.Pairwise fun a b => a.stop ≤ b.start) {start stop : Nat} :
    overlapsAny spans start stop = false ↔ ∀ s ∈ spans, ¬ (start < s.stop ∧ s.start < stop) := by
  have hpair : spans.Pairwise fun a b => decide (b.stop ≤ start) = true →
      decide (a.stop ≤ start) = true := by
    refine hord.imp_of_mem fun {a b} _ hb hab => ?_
    have := hlt b hb
    simp only [decide_eq_true_eq]
    omega
  have hpast := lt_partitionPoint_iff hpair
  rw [List.pairwise_iff_getElem] at hord
  rw [List.forall_mem_iff_forall_getElem]
  unfold overlapsAny
  generalize partitionPoint (fun s : Span => decide (s.stop ≤ start)) spans = border at hpast ⊢
  simp only [decide_eq_true_eq] at hpast
  split
  · next hnone =>
    -- every span ends before the place
    rw [List.getElem?_eq_none_iff] at hnone
    refine iff_of_true rfl fun i hi => ?_
    have := (hpast i hi).mp (by omega)
    omega
  · next span hsome =>
    obtain ⟨hb, rfl⟩ := List.getElem?_eq_some_iff.mp hsome
    have hnot := mt (hpast border hb).mpr (Nat.lt_irrefl _)
    rw [← Bool.not_eq_true, Span.intersects_iff]
    have hne := hlt spans[border] (List.getElem_mem hb)
    constructor
    · intro hclear i hi
      rcases Nat.lt_trichotomy i border with hbefore | rfl | hbehind
      · have := (hpast i hi).mp hbefore
        omega
      · exact hclear
      · have := hord border i hb hi hbehind
        omega
    · intro hclear
      exact hclear border hb

/-- In a list in increasing order the first element that passes a test is the least. -/
theorem find?_eq_some_iff_least {items : List Nat} (h : items.Pairwise (· < ·))
    {test : Nat → Bool} {i : Nat} :
    items.find? test = some i ↔
      (i ∈ items ∧ test i = true) ∧ ∀ j, j ∈ items ∧ test j = true → i ≤ j := by
  induction h with
  | nil => simp
  | @cons first rest hfirst _ ih =>
    rw [List.find?_cons]
    split
    · next ht =>
      constructor
      · rintro ⟨⟩
        refine ⟨⟨List.mem_cons_self, ht⟩, fun j hj => ?_⟩
        rcases List.mem_cons.mp hj.1 with rfl | hm
        · exact Nat.le_refl _
        · exact Nat.le_of_lt (hfirst j hm)
      · rintro ⟨⟨hm, _⟩, hleast⟩
        have hle := hleast first ⟨List.mem_cons_self, ht⟩
        rcases List.mem_cons.mp hm with rfl | hm
        · rfl
        · have := hfirst i hm
          omega
    · next ht =>
      have hmem (j : Nat) : (j ∈ first :: rest ∧ test j = true) ↔ j ∈ rest ∧ test j = true := by
        rw [List.mem_cons]
        constructor
        · rintro ⟨rfl | hm, hj⟩
          · simp [hj] at ht
          · exact ⟨hm, hj⟩
        · rintro ⟨hm, hj⟩
          exact ⟨.inr hm, hj⟩
      simp only [hmem, ih]

namespace Classification

/-- A place of the needle none of whose bytes lies in a segment of a kind in `avoid`. -/
structure Admits (c : Classification) (avoid : Kind → Bool) (needle text : String)
    (start : Nat) : Prop where
  occurs : OccursAt needle text start
  clear : ∀ s ∈ c.segments, avoid s.kind = true →
    ∀ i, start ≤ i → i < start + needle.utf8ByteSize → s.span.contains i = false

section
variable {c : Classification} (h : Placed c.segments)
include h

theorem overlapsAny_literals_eq_false_iff {start stop : Nat} :
    overlapsAny c.literals start stop = false ↔ c.Clear Kind.isLiteral start stop := by
  have hmem {s : Segment} (hs : s ∈ c.segments.filter (·.kind.isLiteral)) : s ∈ c.segments :=
    (List.mem_filter.mp hs).1
  rw [literals, overlapsAny_eq_false_iff]
  · simp only [List.forall_mem_map, List.mem_filter, Clear, and_imp]
  · simp only [List.forall_mem_map]
    exact fun s hs => h.start_lt s (hmem hs)
  · rw [List.pairwise_map]
    exact h.ordered.filter _

/-- Keeping clear of segments is sharing no byte with them. -/
theorem admits_iff {avoid : Kind → Bool} {needle text : String} (hn : needle ≠ "")
    {start : Nat} :
    c.Admits avoid needle text start ↔ StandsAt needle.toList text.toList start ∧
      c.Clear avoid start (start + byteLength needle.toList) := by
  have hpos : 0 < needle.utf8ByteSize :=
    Nat.pos_of_ne_zero (mt String.utf8ByteSize_eq_zero_iff.mp hn)
  have hclear : (∀ s ∈ c.segments, avoid s.kind = true →
      ∀ i, start ≤ i → i < start + needle.utf8ByteSize → s.span.contains i = false) ↔
        c.Clear avoid start (start + byteLength needle.toList) := by
    refine forall₃_congr fun s hs _ => ?_
    rw [← Span.intersects_iff, byteLength_toList,
      Span.intersects_iff_exists_mem (h.start_lt s hs) (by omega)]
    constructor
    · rintro hno ⟨i, hin, hle, hlt⟩
      simp [hno i hle hlt] at hin
    · intro hno i hle hlt
      exact Bool.eq_false_iff.mpr fun hin => hno ⟨i, hin, hle, hlt⟩
  rw [← hclear, ← occursAt_iff_standsAt hn]
  exact ⟨fun ha => ⟨ha.occurs, ha.clear⟩, fun ⟨ho, hc⟩ => ⟨ho, hc⟩⟩

end
end Classification

/-- What is found is the least place that `admits` allows, if there is one, and lies between
characters with both of its ends. -/
structure FindsFirst (found : Option Nat) (needle text : String) (admits : Nat → Prop) :
    Prop where
  eq_some_iff : ∀ start, found = some start ↔
    needle ≠ "" ∧ admits start ∧ ∀ other, admits other → start ≤ other
  eq_none_iff : found = none ↔ needle = "" ∨ ∀ start, ¬ admits start
  boundary : ∀ start, found = some start →
    IsBoundary text start ∧ IsBoundary text (start + needle.utf8ByteSize)

section
variable {c : Classification} (h : Placed c.segments) {avoid : Kind → Bool} {test : Nat → Bool}
  {needle text : String}
include h

/-- A test that rejects what overlaps a segment to avoid leaves the places that are admitted. -/
theorem findsFirst_find? (ht : ∀ start, test start = true ↔
      c.Clear avoid start (start + byteLength needle.toList)) :
    FindsFirst ((occurrences needle.toList text.toList).find? test) needle text
      (c.Admits avoid needle text) := by
  have hmem (hn : needle ≠ "") (start : Nat) :
      (start ∈ occurrences needle.toList text.toList ∧ test start = true) ↔
        c.Admits avoid needle text start := by
    rw [mem_occurrences, Classification.admits_iff h hn, ht,
      and_iff_right (Lexicon.toList_ne_nil hn)]
  have hempty : (occurrences [] text.toList).find? test = none := rfl
  refine ⟨fun start => ?_, ?_, fun start hs => ?_⟩
  · by_cases hn : needle = ""
    · subst hn
      simp [hempty]
    · rw [find?_eq_some_iff_least (pairwise_occurrences _ _)]
      simp only [hmem hn, ne_eq, hn, not_false_eq_true, true_and]
  · by_cases hn : needle = ""
    · subst hn
      simp [hempty]
    · simp only [List.find?_eq_none, hn, false_or, ← hmem hn, not_and]
  · have hin := List.mem_of_find?_eq_some hs
    exact (mem_occurrences.mp hin).2.isBoundary

end

/-- Clear of all segments, of the comments, and of the literals, each search finds the least
place of its needle. -/
theorem searches_find_first (lexicon : Lexicon) (text needle : String) :
    let c := Classification.of lexicon text
    FindsFirst (c.findInCode? needle text) needle text (c.Admits (fun _ => true) needle text) ∧
    FindsFirst (c.findUncommented? needle text) needle text
      (c.Admits Kind.isComment needle text) ∧
    FindsFirst (findOutsideLiterals? lexicon needle text) needle text
      (c.Admits Kind.isLiteral needle text) := by
  intro c
  have h : Placed c.segments := placed_of lexicon text
  refine ⟨findsFirst_find? h fun start => ?_, findsFirst_find? h fun start => ?_,
    findsFirst_find? h fun start => ?_⟩
  · rw [Bool.not_eq_true', Classification.touches_eq_false_iff h]
  · rw [Bool.not_eq_true', Classification.touches_eq_false_iff h]
  · rw [Bool.not_eq_true', Classification.overlapsAny_literals_eq_false_iff h]

end Graft.Scan
