/-! # Byte spans

A span is the half-open interval of byte offsets from `start` up to `stop`.
-/
namespace Graft.Scan

structure Span where
  start : Nat
  stop : Nat
deriving DecidableEq, Repr

namespace Span

def length (s : Span) : Nat :=
  s.stop - s.start

def isEmpty (s : Span) : Bool :=
  s.start == s.stop

def contains (s : Span) (offset : Nat) : Bool :=
  s.start ≤ offset && offset < s.stop

/-- The overlap test for the bytes from `start` up to `stop`. -/
def intersects (s : Span) (start stop : Nat) : Bool :=
  start < s.stop && s.start < stop

def shift (s : Span) (distance : Nat) : Span :=
  ⟨s.start + distance, s.stop + distance⟩

theorem intersects_iff {s : Span} {start stop : Nat} :
    s.intersects start stop = true ↔ start < s.stop ∧ s.start < stop := by
  simp [intersects]

theorem contains_iff {s : Span} {offset : Nat} :
    s.contains offset = true ↔ s.start ≤ offset ∧ offset < s.stop := by
  simp [contains]

/-- Two non-empty intervals overlap exactly when they share an offset. -/
theorem intersects_iff_exists_mem {s : Span} {start stop : Nat}
    (hs : s.start < s.stop) (h : start < stop) :
    s.intersects start stop = true ↔
      ∃ offset, s.contains offset = true ∧ start ≤ offset ∧ offset < stop := by
  simp only [intersects_iff, contains_iff]
  constructor
  · intro h
    exact ⟨max s.start start, by omega, by omega, by omega⟩
  · rintro ⟨offset, _, _, _⟩
    omega

end Span
end Graft.Scan
