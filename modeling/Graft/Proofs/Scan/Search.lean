import Graft.Proofs.Scan.Segments
import Graft.Proofs.Text.Occurrence
import Graft.Scan.Search

/-! # Searching by bisection

Where the elements that satisfy a predicate come first, bisection finds the end of them.  So
the overlap test, which skips the segments in front of a span and stops behind it, answers
as a look at every segment would.
-/
namespace Graft.Scan
open Graft.Text
variable {α : Type} {p : α → Bool}

/-- Bisection finds the border between the elements that satisfy `p` and the others. -/
theorem lt_bisect_iff {items : List α} (hp : items.Pairwise fun a b => p b → p a)
    {low high : Nat} (hle : low ≤ high) (hh : high ≤ items.length)
    (hlow : ∀ i (hi : i < items.length), i < low → p items[i])
    (hhigh : ∀ i (hi : i < items.length), high ≤ i → ¬ p items[i]) :
    ∀ i (hi : i < items.length), i < bisect p items.toArray low high ↔ p items[i] := by
  rw [List.pairwise_iff_getElem] at hp
  fun_induction bisect p items.toArray low high with
  | case1 low high hlt hnone =>
    have : (low + high) / 2 < items.length := by omega
    simp [this] at hnone
  | case2 low high hlt item hitem hpi ih =>
    have hm : (low + high) / 2 < items.length := by omega
    obtain rfl : items[(low + high) / 2] = item := by simpa [hm] using hitem
    refine ih (by omega) hh (fun i hi hlt => ?_) hhigh
    rcases Nat.lt_succ_iff_lt_or_eq.mp hlt with hlt | rfl
    · exact hp _ _ hi hm hlt hpi
    · exact hpi
  | case3 low high hlt item hitem hpi ih =>
    have hm : (low + high) / 2 < items.length := by omega
    obtain rfl : items[(low + high) / 2] = item := by simpa [hm] using hitem
    refine ih (by omega) (by omega) hlow fun i hi hle hpi' => hpi ?_
    rcases Nat.lt_or_eq_of_le hle with hlt | rfl
    · exact hp _ _ hm hi hlt hpi'
    · exact hpi'
  | case4 low high hlt =>
    intro i hi
    refine ⟨hlow i hi, fun hpi => ?_⟩
    have := mt (hhigh i hi) (not_not_intro hpi)
    omega

theorem lt_partitionPoint_iff {items : List α} (hp : items.Pairwise fun a b => p b → p a)
    (i : Nat) (hi : i < items.length) : i < partitionPoint p items ↔ p items[i] :=
  lt_bisect_iff hp (Nat.zero_le _) (Nat.le_refl _) (fun _ _ h => absurd h (Nat.not_lt_zero _))
    (fun _ hi hle => absurd hi (Nat.not_lt.mpr hle)) i hi

theorem mem_drop_partitionPoint {items : List α} (hp : items.Pairwise fun a b => p b → p a)
    {item : α} (hi : item ∈ items) (h : ¬ p item) : item ∈ items.drop (partitionPoint p items) := by
  obtain ⟨i, hlt, rfl⟩ := List.mem_iff_getElem.mp hi
  have hle := mt (lt_partitionPoint_iff hp i hlt).mp h
  rw [List.mem_drop_iff_getElem]
  exact ⟨i - partitionPoint p items, by omega, by congr 1; omega⟩

theorem mem_takeWhile_of_pairwise {items : List α} (hp : items.Pairwise fun a b => p b → p a)
    {item : α} (hi : item ∈ items) (h : p item) : item ∈ items.takeWhile p := by
  induction hp with
  | nil => simp at hi
  | @cons first rest hfirst _ ih =>
    have hpf : p first := by
      rcases List.mem_cons.mp hi with rfl | hi
      · exact h
      · exact hfirst item hi h
    rw [List.takeWhile_cons_of_pos hpf]
    rcases List.mem_cons.mp hi with rfl | hi
    · exact List.mem_cons_self
    · exact List.mem_cons_of_mem first (ih hi)

namespace Placed
variable {segments : List Segment} (h : Placed segments)
include h

theorem pairwise_stop_le (start : Nat) :
    segments.Pairwise fun a b => decide (b.span.stop ≤ start) = true →
      decide (a.span.stop ≤ start) = true := by
  refine h.ordered.imp_of_mem fun {a b} _ hb hab => ?_
  have := h.start_lt b hb
  simp only [decide_eq_true_eq]
  omega

theorem pairwise_start_lt (stop : Nat) :
    segments.Pairwise fun a b => decide (b.span.start < stop) = true →
      decide (a.span.start < stop) = true := by
  refine h.ordered.imp_of_mem fun {a b} ha _ hab => ?_
  have := h.start_lt a ha
  simp only [decide_eq_true_eq]
  omega

end Placed

namespace Classification

/-- No segment of a kind in `avoid` overlaps the bytes from `start` up to `stop`. -/
def Clear (c : Classification) (avoid : Kind → Bool) (start stop : Nat) : Prop :=
  ∀ s ∈ c.segments, avoid s.kind = true → ¬ (start < s.span.stop ∧ s.span.start < stop)

/-- The overlap test answers as a look at every segment would. -/
theorem touches_eq_false_iff {c : Classification} (h : Placed c.segments) {avoid : Kind → Bool}
    {start stop : Nat} : c.touches avoid start stop = false ↔ c.Clear avoid start stop := by
  have hhit (s : Segment) : ¬ (avoid s.kind && s.span.intersects start stop) = true ↔
      (avoid s.kind = true → ¬ (start < s.span.stop ∧ s.span.start < stop)) := by
    simp [Span.intersects_iff]
  unfold touches Clear
  rw [← Bool.not_eq_true, List.any_eq_true]
  constructor
  · intro hn s hs
    rw [← hhit]
    intro ht
    have hi := Span.intersects_iff.mp (Bool.and_eq_true_iff.mp ht).2
    refine hn ⟨s, mem_takeWhile_of_pairwise ((h.pairwise_start_lt stop).drop) ?_ ?_, ht⟩
    · exact mem_drop_partitionPoint (h.pairwise_stop_le start) hs (by simpa using hi.1)
    · simpa using hi.2
  · rintro hc ⟨s, hs, ht⟩
    exact (hhit s).mpr (hc s (List.mem_of_mem_drop ((List.takeWhile_subset _) hs))) ht

/-- A search succeeds exactly when the needle stands clear of the segments to avoid. -/
theorem isSome_find?_iff {c : Classification} (h : Placed c.segments) {avoid : Kind → Bool}
    {needle text : String} :
    (c.find? avoid needle text).isSome = true ↔ needle.toList ≠ [] ∧ ∃ start,
      StandsAt needle.toList text.toList start ∧
        c.Clear avoid start (start + byteLength needle.toList) := by
  simp only [find?, List.find?_isSome, mem_occurrences, Bool.not_eq_true', touches_eq_false_iff h]
  constructor
  · rintro ⟨start, ⟨hn, hs⟩, hc⟩
    exact ⟨hn, start, hs, hc⟩
  · rintro ⟨hn, start, hs, hc⟩
    exact ⟨start, ⟨hn, hs⟩, hc⟩

theorem clear_of_find?_eq_some {c : Classification} (h : Placed c.segments) {avoid : Kind → Bool}
    {needle text : String} {start : Nat} (hf : c.find? avoid needle text = some start) :
    needle.toList ≠ [] ∧ StandsAt needle.toList text.toList start ∧
      c.Clear avoid start (start + byteLength needle.toList) := by
  obtain ⟨hn, hs⟩ := mem_occurrences.mp (List.mem_of_find?_eq_some hf)
  exact ⟨hn, hs, (touches_eq_false_iff h).mp (by simpa using List.find?_some hf)⟩

end Classification
end Graft.Scan
