import Graft.Scan.Classification

/-! # Searching a classified text

A search looks for the first occurrence of a needle that keeps clear of certain segments.
The segments are in order, so the first one that could overlap a given span is found by
bisection.
-/
namespace Graft.Scan
open Graft.Text

/-- Bisects the indices from `low` up to `high` for the first element that fails `p`. -/
def bisect {α : Type} (p : α → Bool) (items : Array α) (low high : Nat) : Nat :=
  if low < high then
    match items[(low + high) / 2]? with
    | none => low
    | some item =>
      if p item then bisect p items ((low + high) / 2 + 1) high
      else bisect p items low ((low + high) / 2)
  else
    low
  termination_by high - low
  decreasing_by all_goals omega

/-- In a list whose elements that satisfy `p` come first, the number of these. -/
def partitionPoint {α : Type} (p : α → Bool) (items : List α) : Nat :=
  bisect p items.toArray 0 items.length

namespace Classification

/-- Whether the bytes from `start` up to `stop` overlap a segment of a kind that `counts`
accepts. -/
def touches (c : Classification) (counts : Kind → Bool) (start stop : Nat) : Bool :=
  let first := partitionPoint (fun s => s.span.stop ≤ start) c.segments
  ((c.segments.drop first).takeWhile (fun s => s.span.start < stop)).any
    fun s => counts s.kind && s.span.intersects start stop

/-- The first occurrence of the needle that touches no segment of the kinds in `avoid`. -/
def find? (c : Classification) (avoid : Kind → Bool) (needle text : String) : Option Nat :=
  (occurrences needle.toList text.toList).find? fun start =>
    !c.touches avoid start (start + byteLength needle.toList)

/-- The first occurrence of the needle clear of comments and literals. -/
def findInCode? (c : Classification) (needle text : String) : Option Nat :=
  c.find? (fun _ => true) needle text

/-- The first occurrence of the needle clear of comments. -/
def findUncommented? (c : Classification) (needle text : String) : Option Nat :=
  c.find? Kind.isComment needle text

end Classification

/-- Whether the bytes from `start` up to `stop` overlap one of the spans, which come in
order and without overlap. -/
def overlapsAny (spans : List Span) (start stop : Nat) : Bool :=
  match spans[partitionPoint (fun s => s.stop ≤ start) spans]? with
  | none => false
  | some span => span.intersects start stop

/-- The first occurrence of the needle clear of literals. -/
def findOutsideLiterals? (lexicon : Lexicon) (needle text : String) : Option Nat :=
  let literals := (Classification.of lexicon text).literals
  (occurrences needle.toList text.toList).find? fun start =>
    !overlapsAny literals start (start + byteLength needle.toList)

end Graft.Scan
