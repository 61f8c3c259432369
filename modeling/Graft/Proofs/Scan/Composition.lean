import Graft.Proofs.Scan.BehindCode
import Graft.Proofs.Scan.Stripping

/-! # A text in front of another

What a text holds says all that matters for the text on the next line: whether a block comment
is still open.  If none is, the two are classified and stripped apart.  If one is, it goes on
through the first closing marker of the second text, or through all of it, and behind that
marker the second text is read as it is on its own.
-/
namespace Graft.Scan
open Graft.Text
variable {lexicon : Lexicon}

namespace Segment

/-- The segment from where it starts up to another offset. -/
def upTo (s : Segment) (stop : Nat) : Segment :=
  { s with span := ⟨s.span.start, stop⟩ }

end Segment

/-! ## The first closing marker -/

section
variable (hc : lexicon.blockClose ≠ "")
include hc

theorem takeThrough_blockClose {before after : String}
    (h : ∀ start, OccursAt lexicon.blockClose (before ++ lexicon.blockClose ++ after) start →
      before.utf8ByteSize ≤ start) :
    takeThrough lexicon.blockClose.toList (before ++ lexicon.blockClose ++ after).toList =
      some ((before ++ lexicon.blockClose).toList, after.toList) := by
  simp only [occursAt_iff_standsAt hc, String.toList_append, List.append_assoc,
    ← byteLength_toList before] at h ⊢
  exact takeThrough_of_firstPlace? (Lexicon.toList_ne_nil hc) (firstPlace?_of_least h)

theorem takeThrough_blockClose_eq_none {text : String}
    (h : ∀ start, ¬ OccursAt lexicon.blockClose text start) :
    takeThrough lexicon.blockClose.toList text.toList = none := by
  have hnone : firstPlace? lexicon.blockClose.toList text.toList = none :=
    Option.eq_none_iff_forall_ne_some.mpr fun start hf =>
      h start ((occursAt_iff_standsAt hc).mpr (firstPlace?_eq_some hf).1)
  exact takeThrough_of_firstPlace?_eq_none hnone

end

/-! ## Classifying what follows an open comment -/

section
variable (hc : lexicon.blockClose ≠ "") (hcn : '\n' ∉ lexicon.blockClose.toList)
include hc hcn

/-- The lines of a text add the segments of the scan of that text from the state before it. -/
theorem foldl_addLine_lines (p : Progress) (text : List Char) :
    (lines text).foldl (Progress.addLine lexicon) p =
      { segments := p.joined (segmentsFrom p.offset (scanRest lexicon p.state text).pieces)
        state := (scanRest lexicon p.state text).state.carriedOver
        offset := p.offset + byteLength text + 1 } := by
  obtain ⟨line, rest, hl⟩ := List.exists_cons_of_ne_nil (lines_ne_nil text)
  have hs := carried_scanLines_lines hc hcn p.state text
  have hpieces := congrArg LineScan.pieces hs
  have hstate := congrArg LineScan.state hs
  simp only [LineScan.carried] at hpieces hstate
  rw [← hpieces, ← hstate, hl, foldl_addLine, ← hl, intercalate_lines]

/-- Behind an open comment a text adds what the scan from within that comment finds. -/
theorem of_append_newline_of_open {a : String}
    (he : (Classification.of lexicon a).endState = .inBlockComment) (b : String) :
    Classification.of lexicon (a ++ "\n" ++ b) =
      ⟨joinCarried (Classification.of lexicon a).segments
          (segmentsFrom (a.utf8ByteSize + 1)
            (scanRest lexicon .inBlockComment b.toList).pieces),
        (scanRest lexicon .inBlockComment b.toList).state.carriedOver⟩ := by
  have hstate : (Progress.ofText lexicon a).state = .inBlockComment := he
  rw [of_append_newline_eq, foldl_addLine_lines hc hcn, Progress.joined, if_pos hstate, hstate]
  rfl

section
variable {a : String} (he : (Classification.of lexicon a).endState = .inBlockComment)
  {earlier : List Segment} {opened : Segment}
  (hs : (Classification.of lexicon a).segments = earlier ++ [opened])
include he hs

/-- The comment ends with its first closing marker, and behind it the text is read anew. -/
theorem of_append_newline_closed {before after : String}
    (h : ∀ start, OccursAt lexicon.blockClose (before ++ lexicon.blockClose ++ after) start →
      before.utf8ByteSize ≤ start) :
    Classification.of lexicon (a ++ "\n" ++ (before ++ lexicon.blockClose ++ after)) =
      ⟨earlier ++
          opened.upTo (a.utf8ByteSize + 1 + (before ++ lexicon.blockClose).utf8ByteSize) ::
            (Classification.of lexicon after).segments.map
              (·.shift (a.utf8ByteSize + 1 + (before ++ lexicon.blockClose).utf8ByteSize)),
        (Classification.of lexicon after).endState⟩ := by
  have hscan : scanRest lexicon .inBlockComment (before ++ lexicon.blockClose ++ after).toList =
      (scanText lexicon after.toList).push
        (.marked .blockComment (before ++ lexicon.blockClose).toList) := by
    simp only [scanRest, ScanState.carriedOver, takeThrough_blockClose hc h]
  rw [of_append_newline_of_open hc hcn he, hscan, hs, LineScan.pieces_push, LineScan.state_push,
    segmentsFrom, joinCarried_concat, endState_of hc hcn, segments_of hc hcn, ← segmentsFrom_add,
    byteLength_toList, Nat.zero_add]
  rfl

/-- Without a closing marker the comment goes on to the end. -/
theorem of_append_newline_unclosed {b : String}
    (h : ∀ start, ¬ OccursAt lexicon.blockClose b start) :
    Classification.of lexicon (a ++ "\n" ++ b) =
      ⟨earlier ++ [opened.upTo (a ++ "\n" ++ b).utf8ByteSize], .inBlockComment⟩ := by
  have hscan : scanRest lexicon .inBlockComment b.toList =
      ⟨[.marked .blockComment b.toList], .inBlockComment⟩ := by
    simp only [scanRest, ScanState.carriedOver, takeThrough_blockClose_eq_none hc h]
  have hsize : (a ++ "\n" ++ b).utf8ByteSize = a.utf8ByteSize + 1 + b.utf8ByteSize := by
    simp only [String.utf8ByteSize_append]
    rfl
  rw [of_append_newline_of_open hc hcn he, hscan, hs, segmentsFrom, segmentsFrom,
    joinCarried_concat, byteLength_toList, hsize]
  rfl

end
end

/-! ## Stripping lines behind others -/

/-- The lines of two lists are stripped one after the other, the second list from the state in
which the first one ends. -/
theorem stripFrom_append (p : Progress) (a b : List (List Char)) :
    stripFrom lexicon p.state (a ++ b) =
      stripFrom lexicon p.state a ++
        stripFrom lexicon (a.foldl (Progress.addLine lexicon) p).state b := by
  induction a generalizing p with
  | nil => rfl
  | cons line rest ih =>
    have hrest := ih (p.addLine lexicon line)
    simp only [Progress.addLine] at hrest
    rw [List.cons_append, stripFrom, stripFrom, hrest, List.append_assoc]
    rfl

theorem strip_append {p : List String} (hn : ∀ line ∈ p, '\n' ∉ line.toList)
    (he : (Classification.of lexicon ("\n".intercalate p)).endState = .code) (q : List String) :
    strip lexicon (p ++ q) = strip lexicon p ++ strip lexicon q := by
  have hstate : ((p.map String.toList).foldl (Progress.addLine lexicon) .start).state =
      .code := by
    by_cases hp : p = []
    · subst hp
      rfl
    · rwa [of_intercalate hn hp] at he
  have hlines := @stripFrom_append lexicon .start (p.map String.toList) (q.map String.toList)
  rw [hstate] at hlines
  rw [strip, List.map_append, strip, strip, ← String.ofList_append]
  exact congrArg String.ofList hlines

/-! ## Both texts -/

/-- A text on a new line behind another is read as on its own, after what is left of a block
comment that is open in front of it; lines behind code are stripped as on their own. -/
theorem scanning_composes {lexicon : Lexicon} (hc : lexicon.blockClose ≠ "")
    (hcn : '\n' ∉ lexicon.blockClose.toList) (a b : String) :
    let c := Classification.of lexicon a
    let whole := Classification.of lexicon (a ++ "\n" ++ b)
    (c.endState = .code →
      whole.segments = c.segments ++
          (Classification.of lexicon b).segments.map (·.shift (a.utf8ByteSize + 1)) ∧
        whole.endState = (Classification.of lexicon b).endState) ∧
    (c.endState = .inBlockComment →
      ∃ earlier opened, c.segments = earlier ++ [opened] ∧
        (∀ before after, b = before ++ lexicon.blockClose ++ after →
          (∀ start, OccursAt lexicon.blockClose b start → before.utf8ByteSize ≤ start) →
          let k := (before ++ lexicon.blockClose).utf8ByteSize
          whole.segments = earlier ++ opened.upTo (a.utf8ByteSize + 1 + k) ::
              (Classification.of lexicon after).segments.map
                (·.shift (a.utf8ByteSize + 1 + k)) ∧
            whole.endState = (Classification.of lexicon after).endState) ∧
        ((∀ start, ¬ OccursAt lexicon.blockClose b start) →
          whole.segments = earlier ++ [opened.upTo (a ++ "\n" ++ b).utf8ByteSize] ∧
            whole.endState = .inBlockComment)) ∧
    ∀ p q : List String, (∀ line ∈ p ++ q, '\n' ∉ line.toList) →
      (Classification.of lexicon ("\n".intercalate p)).endState = .code →
        strip lexicon (p ++ q) = strip lexicon p ++ strip lexicon q := by
  intro c whole
  refine ⟨fun he => ?_, fun he => ?_, fun p q hn he => ?_⟩
  · have hwhole : whole = _ := of_append_newline he b
    rw [hwhole]
    exact ⟨rfl, rfl⟩
  · obtain ⟨opened, hlast, -⟩ := (wellFormed_of lexicon a).openEnd he
    obtain ⟨earlier, hs⟩ := List.getLast?_eq_some_iff.mp hlast
    refine ⟨earlier, opened, hs, ?_, fun hnone => ?_⟩
    · rintro before after rfl hfirst
      have hwhole : whole = _ := of_append_newline_closed hc hcn he hs hfirst
      rw [hwhole]
      exact ⟨rfl, rfl⟩
    · have hwhole : whole = _ := of_append_newline_unclosed hc hcn he hs hnone
      rw [hwhole]
      exact ⟨rfl, rfl⟩
  · exact strip_append (fun line hm => hn line (List.mem_append_left q hm)) he q

/-- A literal in front of a line comment; a comment that is closed and another that follows it
at once; one over an empty line; lines that a comment joins in front of one more. -/
theorem scanning_composes_reopened :
    ({} : Lexicon).blockClose ≠ "" ∧ '\n' ∉ ({} : Lexicon).blockClose.toList ∧
      (Classification.of {} ("'a'" ++ "\n" ++ "// b")).segments =
        [⟨.charLiteral, 0, 3⟩, ⟨.lineComment, 4, 8⟩] ∧
      (Classification.of {} ("a /*" ++ "\n" ++ "\n*//* b")).segments =
        [⟨.blockComment, 2, 8⟩, ⟨.blockComment, 8, 12⟩] ∧
      (Classification.of {} ("a /*" ++ "\n" ++ "")).segments = [⟨.blockComment, 2, 5⟩] ∧
      strip {} (["a /* b", "*/ c"] ++ ["d // e"]) = "a \n c\n" ++ "d \n" := by
  have hc : ({} : Lexicon).blockClose ≠ "" := by decide
  have hn : '\n' ∉ ({} : Lexicon).blockClose.toList := by decide
  obtain ⟨hcode, -, -⟩ := scanning_composes hc hn "'a'" "// b"
  obtain ⟨-, hclosed, hstrip⟩ := scanning_composes hc hn "a /*" "\n*//* b"
  obtain ⟨-, hopen, -⟩ := scanning_composes hc hn "a /*" ""
  have hopened : (Classification.of {} "a /*").segments = [] ++ [⟨.blockComment, 2, 4⟩] := by
    decide +kernel
  have hfirst : ∀ start, OccursAt ({} : Lexicon).blockClose "\n*//* b" start → 1 ≤ start := by
    intro start h
    cases start with
    | zero => exact absurd h (by unfold OccursAt; decide +kernel)
    | succ start => omega
  have hnone : ∀ start, ¬ OccursAt ({} : Lexicon).blockClose "" start := by
    intro start h
    have hle := h.length_le
    simp [length_bytes] at hle
  refine ⟨hc, hn, ?_, ?_, ?_, ?_⟩
  · exact (hcode (by decide +kernel)).1.trans (by decide +kernel)
  · obtain ⟨earlier, opened, hs, h, -⟩ := hclosed (by decide +kernel)
    obtain ⟨rfl, hlast⟩ := List.append_inj' (hs.symm.trans hopened) rfl
    obtain rfl := List.singleton_inj.mp hlast
    exact (h "\n" "/* b" rfl hfirst).1.trans (by decide +kernel)
  · obtain ⟨earlier, opened, hs, -, h⟩ := hopen (by decide +kernel)
    obtain ⟨rfl, hlast⟩ := List.append_inj' (hs.symm.trans hopened) rfl
    obtain rfl := List.singleton_inj.mp hlast
    exact (h hnone).1.trans (by decide +kernel)
  · exact (hstrip ["a /* b", "*/ c"] ["d // e"] (by simp) (by decide +kernel)).trans
      (by decide +kernel)

end Graft.Scan
