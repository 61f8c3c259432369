import Graft.Proofs.Scan.Leftmost

/-! # The overlap tests against a full scan

Neither overlap test looks at every segment: one bisects to the first segment that ends behind
the start of a span and stops before the first that begins behind its end, the other looks at
the segment found by bisection alone.  On a classified text each answers as a look at every
segment does, wherever the two bounds lie and in whatever order they are given; where some
byte lies between them, the answer tells whether such a byte lies in a segment.
-/
namespace Graft.Scan
namespace Classification

/-- One of the bytes from `start` up to `stop` lies in a segment of a kind that `counts`. -/
def CoversSome (c : Classification) (counts : Kind → Bool) (start stop : Nat) : Prop :=
  ∃ offset, (start ≤ offset ∧ offset < stop) ∧
    ∃ s ∈ c.segments, counts s.kind = true ∧ s.span.contains offset = true

variable {c : Classification} {counts : Kind → Bool} {start stop : Nat}

/-- To keep clear of the segments is to overlap none of them. -/
theorem any_intersects_eq_false_iff :
    (c.segments.any fun s => counts s.kind && s.span.intersects start stop) = false ↔
      c.Clear counts start stop := by
  rw [List.any_eq_false]
  apply forall₂_congr
  intro s _
  simp [Span.intersects_iff]

section
variable (h : Placed c.segments)
include h

/-- A test that fails exactly on the spans that keep clear is the overlap test. -/
theorem touches_eq_of_clear {test : Bool} (ht : test = false ↔ c.Clear counts start stop) :
    c.touches counts start stop = test := by
  apply Bool.eq_iff_iff.mpr
  rw [← Decidable.not_iff_not, Bool.not_eq_true, Bool.not_eq_true, touches_eq_false_iff h, ht]

theorem touches_eq_any : c.touches counts start stop =
    c.segments.any fun s => counts s.kind && s.span.intersects start stop :=
  touches_eq_of_clear h any_intersects_eq_false_iff

theorem overlapsAny_literals_eq_touches :
    overlapsAny c.literals start stop = c.touches Kind.isLiteral start stop :=
  (touches_eq_of_clear h (overlapsAny_literals_eq_false_iff h)).symm

/-- Segments hold a byte at least, so a span that does too shares one with what it overlaps. -/
theorem touches_iff_coversSome (hlt : start < stop) :
    c.touches counts start stop = true ↔ c.CoversSome counts start stop := by
  rw [touches_eq_any h, List.any_eq_true]
  constructor
  · rintro ⟨s, hs, ht⟩
    obtain ⟨hk, hi⟩ := Bool.and_eq_true_iff.mp ht
    obtain ⟨offset, hin, hbounds⟩ :=
      (Span.intersects_iff_exists_mem (h.start_lt s hs) hlt).mp hi
    exact ⟨offset, hbounds, s, hs, hk, hin⟩
  · rintro ⟨offset, hbounds, s, hs, hk, hin⟩
    have hi := (Span.intersects_iff_exists_mem (h.start_lt s hs) hlt).mpr ⟨offset, hin, hbounds⟩
    exact ⟨s, hs, Bool.and_eq_true_iff.mpr ⟨hk, hi⟩⟩

end
end Classification

/-- The overlap test answers as a look at every segment, the one for literals as the overlap
test on them; both tell whether a byte is shared where there is one to share. -/
theorem overlap_tests_scan_all (lexicon : Lexicon) (text : String) (counts : Kind → Bool)
    (start stop : Nat) :
    let c := Classification.of lexicon text
    (c.touches counts start stop =
        c.segments.any fun s => counts s.kind && s.span.intersects start stop) ∧
      overlapsAny c.literals start stop = c.touches Kind.isLiteral start stop ∧
      (start < stop →
        (c.touches counts start stop = true ↔ c.CoversSome counts start stop) ∧
          (overlapsAny c.literals start stop = true ↔
            c.CoversSome Kind.isLiteral start stop)) := by
  intro c
  have h : Placed c.segments := placed_of lexicon text
  have hliterals : overlapsAny c.literals start stop = c.touches Kind.isLiteral start stop :=
    Classification.overlapsAny_literals_eq_touches h
  refine ⟨Classification.touches_eq_any h, hliterals, fun hlt => ?_⟩
  rw [hliterals]
  exact ⟨Classification.touches_iff_coversSome h hlt, Classification.touches_iff_coversSome h hlt⟩

/-- A literal and a comment stand side by side, and another literal behind them: the span
reaches from the first over all three, and the byte it shares with a comment is found. -/
theorem overlap_tests_scan_all_adjacent :
    let c := Classification.of {} "\"a\"/*b*/ 'c'"
    1 < 12 ∧ c.segments = [⟨.stringLiteral, 0, 3⟩, ⟨.blockComment, 3, 8⟩, ⟨.charLiteral, 9, 12⟩] ∧
      c.touches Kind.isComment 1 12 = true ∧ c.CoversSome Kind.isComment 1 12 ∧
        overlapsAny c.literals 1 12 = true := by
  intro c
  have hc : c.segments =
      [⟨.stringLiteral, 0, 3⟩, ⟨.blockComment, 3, 8⟩, ⟨.charLiteral, 9, 12⟩] := by
    decide +kernel
  have hlt : 1 < 12 := by decide
  have hstring : ⟨.stringLiteral, 0, 3⟩ ∈ c.segments := by
    rw [hc]
    decide
  have hblock : ⟨.blockComment, 3, 8⟩ ∈ c.segments := by
    rw [hc]
    decide
  obtain ⟨-, hliterals, hbytes⟩ := overlap_tests_scan_all {} "\"a\"/*b*/ 'c'" Kind.isComment 1 12
  obtain ⟨hcomment, hliteral⟩ := hbytes hlt
  have hcovers : c.CoversSome Kind.isComment 1 12 :=
    ⟨3, by decide, ⟨.blockComment, 3, 8⟩, hblock, rfl, rfl⟩
  exact ⟨hlt, hc, hcomment.mpr hcovers, hcovers,
    hliteral.mpr ⟨1, by decide, ⟨.stringLiteral, 0, 3⟩, hstring, rfl, rfl⟩⟩

end Graft.Scan
