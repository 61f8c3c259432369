import Graft.Proofs.Scan.Leftmost

/-! # A new line behind code

A text that starts on a new line behind code is read as it is on its own: nothing but an open
block comment is carried over a newline.  This holds of every lexicon, also of one whose
markers are empty or hold newlines.
-/
namespace Graft.Scan
open Graft.Text
variable {lexicon : Lexicon}

theorem lines_append_newline (a b : List Char) : lines (a ++ '\n' :: b) = lines a ++ lines b :=
  List.splitOn_append_cons_self a b

/-- The lines of a text add to what was found before it the segments that it has on its own. -/
theorem foldl_addLine_of_code {p : Progress} (hp : p.state = .code) (text : List Char) :
    (lines text).foldl (Progress.addLine lexicon) p =
      { segments := p.segments ++
          (Classification.ofLines lexicon (lines text)).segments.map (·.shift p.offset)
        state := (Classification.ofLines lexicon (lines text)).endState
        offset := p.offset + byteLength text + 1 } := by
  rw [ofLines_lines, ← segmentsFrom_add, Nat.zero_add]
  obtain ⟨line, rest, hl⟩ := List.exists_cons_of_ne_nil (lines_ne_nil text)
  rw [hl, foldl_addLine, ← hl, intercalate_lines, hp]
  simp [Progress.joined, hp]

/-- What the lines of a text leave behind for those that follow it. -/
def Progress.ofText (lexicon : Lexicon) (text : String) : Progress :=
  ⟨(Classification.of lexicon text).segments, (Classification.of lexicon text).endState,
    text.utf8ByteSize + 1⟩

theorem foldl_addLine_start (text : String) :
    (lines text.toList).foldl (Progress.addLine lexicon) .start = .ofText lexicon text := by
  rw [foldl_addLine_of_code rfl]
  simp [Progress.start, Progress.ofText, Classification.of, Segment.shift, Span.shift]

/-- A text on a new line behind another adds its lines to what that one left behind. -/
theorem of_append_newline_eq (a b : String) :
    Classification.of lexicon (a ++ "\n" ++ b) =
      ⟨((lines b.toList).foldl (Progress.addLine lexicon) (.ofText lexicon a)).segments,
        ((lines b.toList).foldl (Progress.addLine lexicon) (.ofText lexicon a)).state⟩ := by
  have hlines : lines (a ++ "\n" ++ b).toList = lines a.toList ++ lines b.toList := by
    rw [← lines_append_newline]
    simp
  rw [Classification.of, hlines, Classification.ofLines, List.foldl_append, foldl_addLine_start]

theorem of_append_newline {a : String} (he : (Classification.of lexicon a).endState = .code)
    (b : String) : Classification.of lexicon (a ++ "\n" ++ b) =
      ⟨(Classification.of lexicon a).segments ++
          (Classification.of lexicon b).segments.map (·.shift (a.utf8ByteSize + 1)),
        (Classification.of lexicon b).endState⟩ := by
  have hstate : (Progress.ofText lexicon a).state = .code := he
  rw [of_append_newline_eq, foldl_addLine_of_code hstate]
  rfl

@[simp] theorem Segment.shift_shift (s : Segment) (a b : Nat) :
    (s.shift a).shift b = s.shift (a + b) := by
  simp [Segment.shift, Span.shift, Nat.add_assoc]

theorem of_empty : Classification.of lexicon "" = ⟨[], .code⟩ := by
  rw [Classification.of, ofLines_lines]
  simp [lines, scanLines, scanLine, scanCode, segmentsFrom, ScanState.carriedOver]

section
variable {text more : String} (he : (Classification.of lexicon text).endState = .code)
  (hm : more.toList.head? = some '\n')
include he hm

/-- Behind code, a text that starts with a newline keeps its segments. -/
theorem of_append : Classification.of lexicon (text ++ more) =
    ⟨(Classification.of lexicon text).segments ++
        (Classification.of lexicon more).segments.map (·.shift text.utf8ByteSize),
      (Classification.of lexicon more).endState⟩ := by
  obtain ⟨rest, hr⟩ := List.head?_eq_some_iff.mp hm
  obtain rfl : more = "" ++ "\n" ++ .ofList rest := by
    rw [← String.toList_inj, hr]
    simp
  rw [of_append_newline (a := "") (by rw [of_empty]) _, String.empty_append, ← String.append_assoc,
    of_append_newline he, of_empty]
  simp [Function.comp_def, Nat.add_comm 1]

/-- What the text in front holds does not reach into the one behind it. -/
theorem clear_append_iff {avoid : Kind → Bool} {start stop : Nat} :
    (Classification.of lexicon (text ++ more)).Clear avoid (text.utf8ByteSize + start)
        (text.utf8ByteSize + stop) ↔
      (Classification.of lexicon more).Clear avoid start stop := by
  have hfront (s : Segment) (hs : s ∈ (Classification.of lexicon text).segments) :
      ¬ (text.utf8ByteSize + start < s.span.stop ∧ s.span.start < text.utf8ByteSize + stop) := by
    have := (wellFormed_of lexicon text).within s hs
    omega
  simp only [Classification.Clear, of_append he hm, List.forall_mem_append, List.forall_mem_map]
  rw [and_iff_right fun s hs _ => hfront s hs]
  refine forall₃_congr fun s _ _ => not_congr ?_
  simp only [Segment.shift, Span.shift]
  omega

theorem admits_append_iff {avoid : Kind → Bool} {needle : String} (hn : needle ≠ "")
    {start : Nat} :
    (Classification.of lexicon (text ++ more)).Admits avoid needle (text ++ more)
        (text.utf8ByteSize + start) ↔
      (Classification.of lexicon more).Admits avoid needle more start := by
  rw [Classification.admits_iff (placed_of _ _) hn, Classification.admits_iff (placed_of _ _) hn,
    Nat.add_assoc, clear_append_iff he hm, String.toList_append, ← byteLength_toList text,
    standsAt_append_iff]

end

end Graft.Scan
