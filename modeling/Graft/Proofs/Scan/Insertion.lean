import Graft.Proofs.Scan.OnePass
import Graft.Proofs.Scan.Search
import Graft.Proofs.Scan.Splice
import Graft.Proofs.Scan.WellFormed

/-! # Putting a text into another

A text that is read in the same way whatever follows it, and that starts with a newline, can
be put in behind any stretch that no segment overlaps: the segments before that place stay,
those behind it move by its length, and its own come between them (`segments_insert`).  At
the end of a text the same holds, but for a block comment that is still open there: that one
goes on behind the newline (`clear_append_newline`).
-/
namespace Graft.Scan
open Graft.Text
variable {lexicon : Lexicon}

/-- A text is read as the same pieces whatever follows it. -/
def ReadsAs (lexicon : Lexicon) (text : List Char) (pieces : List Piece) : Prop :=
  ∀ more, Reads lexicon (text ++ more) pieces more

namespace ReadsAs
variable {a b : List Char} {p q : List Piece}

theorem append (ha : ReadsAs lexicon a p) (hb : ReadsAs lexicon b q) :
    ReadsAs lexicon (a ++ b) (p ++ q) := by
  intro more
  rw [List.append_assoc]
  exact (ha (b ++ more)).append (hb more)

theorem text (h : ReadsAs lexicon a p) : p.flatMap Piece.text = a := by
  simpa using (h []).text

end ReadsAs

theorem Reads.text_of_append {a b : List Char} {pieces : List Piece}
    (h : Reads lexicon (a ++ b) pieces b) : pieces.flatMap Piece.text = a :=
  List.append_cancel_right h.text

theorem Reads.byteLength_add {text : String} {left : List Char} {pieces : List Piece}
    (h : Reads lexicon text.toList pieces left) :
    byteLength (pieces.flatMap Piece.text) + byteLength left = text.utf8ByteSize := by
  rw [← byteLength_append, h.text, byteLength_toList]

/-- What was read of a text stays when a new line follows the text. -/
theorem Reads.append_newline (hc : lexicon.blockClose ≠ "") {text more : String}
    {left d : List Char} {pieces : List Piece} (h : Reads lexicon text.toList pieces left)
    (hm : more.toList = '\n' :: d) :
    Reads lexicon (text ++ more).toList pieces (left ++ more.toList) := by
  rw [← List.append_nil left] at h
  have hcut := h.cut hc d
  rw [List.append_nil] at h
  rwa [← List.append_assoc, h.text, ← hm, ← String.toList_append] at hcut

/-- What was read up to a place stays when a new line is put in there. -/
theorem Reads.insert_newline (hc : lexicon.blockClose ≠ "") {a b inserted : List Char}
    {pieces : List Piece} (h : Reads lexicon (a ++ b) pieces b)
    (hi : inserted.head? = some '\n') :
    Reads lexicon (a ++ (inserted ++ b)) pieces (inserted ++ b) := by
  obtain ⟨d, rfl⟩ := List.head?_eq_some_iff.mp hi
  have hcut := Reads.cut hc (show Reads lexicon _ pieces ([] ++ b) from h) (d ++ b)
  rwa [h.text_of_append] at hcut

/-- A text is read as the pieces `own` between two texts that are read as without it. -/
structure ReadsBetween (lexicon : Lexicon) (before inserted after : String)
    (pieces own : List Piece) : Prop where
  without : Reads lexicon (before.toList ++ after.toList) pieces after.toList
  within : Reads lexicon (before.toList ++ (inserted.toList ++ after.toList)) (pieces ++ own)
    after.toList

namespace ReadsBetween
variable {before inserted after : String} {pieces own : List Piece}

theorem text (h : ReadsBetween lexicon before inserted after pieces own) :
    own.flatMap Piece.text = inserted.toList := by
  have ht := h.within.text
  rw [List.flatMap_append, h.without.text_of_append, List.append_assoc] at ht
  exact List.append_cancel_right (List.append_cancel_left ht)

/-- In front of a text there is nothing to keep. -/
theorem front (after : String) (h : ReadsAs lexicon inserted.toList own) :
    ReadsBetween lexicon "" inserted after [] own :=
  ⟨.done _, h after.toList⟩

theorem ofNewline (hc : lexicon.blockClose ≠ "")
    (h : Reads lexicon (before.toList ++ after.toList) pieces after.toList)
    (hi : inserted.toList.head? = some '\n') (hd : ReadsAs lexicon inserted.toList own) :
    ReadsBetween lexicon before inserted after pieces own :=
  ⟨h, (h.insert_newline hc hi).append (hd after.toList)⟩

end ReadsBetween

/-- The segments around a text that is put in at an offset and has segments of its own. -/
def spliceSegments (segments : List Segment) (offset length : Nat) (own : List Segment) :
    List Segment :=
  segments.filter (fun s => s.span.stop ≤ offset) ++ own ++
    (segments.filter fun s => offset < s.span.stop).map (·.shift length)

theorem segmentsFrom_insert {before own after : List Piece}
    (hne : ∀ piece ∈ after, piece.text ≠ []) :
    segmentsFrom 0 (before ++ own ++ after) =
      spliceSegments (segmentsFrom 0 (before ++ after)) (byteLength (before.flatMap Piece.text))
        (byteLength (own.flatMap Piece.text))
        (segmentsFrom (byteLength (before.flatMap Piece.text)) own) := by
  have hbefore : ∀ s ∈ segmentsFrom 0 before,
      s.span.stop ≤ byteLength (before.flatMap Piece.text) := by
    intro s hs
    simpa using (le_of_mem_segmentsFrom hs).2
  have hafter : ∀ s ∈ segmentsFrom (byteLength (before.flatMap Piece.text)) after,
      byteLength (before.flatMap Piece.text) < s.span.stop := by
    intro s hs
    have hlt := (placed_segmentsFrom _ hne).start_lt s hs
    exact Nat.lt_of_le_of_lt (le_of_mem_segmentsFrom hs).1 hlt
  simp only [segmentsFrom_append, spliceSegments, List.filter_append, List.map_append,
    List.flatMap_append, byteLength_append, Nat.zero_add, segmentsFrom_add _ (byteLength _)]
  rw [List.filter_eq_self.mpr (by simpa using hbefore),
    List.filter_eq_nil_iff.mpr (by simpa using hafter),
    List.filter_eq_nil_iff.mpr (by simpa using hbefore),
    List.filter_eq_self.mpr (by simpa using hafter)]
  simp

theorem spliceSegments_zero {segments : List Segment} (h : Placed segments) (length : Nat)
    (own : List Segment) :
    spliceSegments segments 0 length own = own ++ segments.map (·.shift length) := by
  have hpos : ∀ s ∈ segments, 0 < s.span.stop := fun s hs => by
    have := h.start_lt s hs
    omega
  unfold spliceSegments
  rw [List.filter_eq_nil_iff.mpr (by simpa [Nat.pos_iff_ne_zero] using hpos),
    List.filter_eq_self.mpr (by simpa using hpos), List.nil_append]

/-- The pieces of a whole text all hold something. -/
theorem text_ne_nil_of_mem_scanText {text : List Char} {piece : Piece}
    (h : piece ∈ (scanText lexicon text).pieces) : piece.text ≠ [] := by
  obtain ⟨pieces, left, hr, ⟨_, hp⟩ | ⟨hne, hp⟩⟩ := exists_reads_pieces lexicon text
  · exact hr.text_ne_nil (hp ▸ h)
  · rcases List.mem_append.mp (hp ▸ h) with h | h
    · exact hr.text_ne_nil h
    · obtain rfl := List.mem_singleton.mp h
      exact hne

section
variable (hc : lexicon.blockClose ≠ "") (hcn : '\n' ∉ lexicon.blockClose.toList)
include hc hcn

/-- A text can be read up to the end of a stretch that overlaps none of its segments. -/
theorem exists_reads_of {before after : String} {start : Nat} (hs : start < before.utf8ByteSize)
    (hclear : (Classification.of lexicon (before ++ after)).Clear (fun _ => true) start
      before.utf8ByteSize) :
    ∃ pieces, Reads lexicon (before.toList ++ after.toList) pieces after.toList := by
  rw [← byteLength_toList] at hs hclear
  have hcs : ∀ s ∈ segmentsFrom 0 (scanText lexicon (before.toList ++ after.toList)).pieces,
      ¬ (start < s.span.stop ∧ s.span.start < byteLength before.toList) := by
    intro s hm
    rw [← String.toList_append, ← segments_of hc hcn] at hm
    exact hclear s hm rfl
  obtain ⟨pieces, hr, _⟩ := exists_reads_of_clear hs hcs
  exact ⟨pieces, hr⟩

section
variable {before after inserted : String} {pieces own : List Piece}

/-- No segment reaches across a place up to which the text can be read. -/
theorem stop_le_or_le_start
    (h : Reads lexicon (before.toList ++ after.toList) pieces after.toList) {s : Segment}
    (hs : s ∈ (Classification.of lexicon (before ++ after)).segments) :
    s.span.stop ≤ before.utf8ByteSize ∨ before.utf8ByteSize ≤ s.span.start := by
  rw [segments_of hc hcn, String.toList_append, h.scanText] at hs
  simp only [LineScan.behind, segmentsFrom_append, h.text_of_append, List.mem_append] at hs
  rcases hs with hs | hs
  · have := (le_of_mem_segmentsFrom hs).2
    rw [h.text_of_append] at this
    exact .inl (by simpa using this)
  · exact .inr (by simpa using (le_of_mem_segmentsFrom hs).1)

variable (h : ReadsBetween lexicon before inserted after pieces own)
include h

/-- With a text put in, the segments before it stay, its own follow and the others move. -/
theorem of_insert : Classification.of lexicon (before ++ (inserted ++ after)) =
    ⟨spliceSegments (Classification.of lexicon (before ++ after)).segments before.utf8ByteSize
        inserted.utf8ByteSize (segmentsFrom before.utf8ByteSize own),
      (Classification.of lexicon (before ++ after)).endState⟩ := by
  have hpieces := @segmentsFrom_insert pieces own (scanText lexicon after.toList).pieces
    fun _ => text_ne_nil_of_mem_scanText
  rw [of_eq_ofWhole hc hcn, of_eq_ofWhole hc hcn]
  simp only [Classification.ofWhole, String.toList_append, h.without.scanText,
    h.within.scanText, LineScan.behind]
  rw [hpieces, h.without.text_of_append, h.text]
  simp

/-- What the inserted text writes outside comments stands outside comments. -/
theorem clear_insert (hown : ∀ piece ∈ own, piece.isComment = false) {start stop : Nat}
    (hs : before.utf8ByteSize ≤ start)
    (he : stop ≤ before.utf8ByteSize + inserted.utf8ByteSize) :
    (Classification.of lexicon (before ++ (inserted ++ after))).Clear Kind.isComment
      start stop := by
  intro s hm hk hover
  rw [segments_of hc hcn, String.toList_append, String.toList_append, h.within.scanText] at hm
  simp only [LineScan.behind, segmentsFrom_append, List.mem_append, List.flatMap_append,
    byteLength_append, h.without.text_of_append, h.text, byteLength_toList, Nat.zero_add] at hm
  rcases hm with (hm | hm) | hm
  · have := (le_of_mem_segmentsFrom hm).2
    rw [h.without.text_of_append, byteLength_toList] at this
    omega
  · obtain ⟨_, text, _, rfl, _, _⟩ := mem_segmentsFrom.mp hm
    have := hown (.marked s.kind text) (by simp)
    simp [Piece.isComment, hk] at this
  · have := (le_of_mem_segmentsFrom hm).1
    omega

theorem isSome_findUncommented?_insert (hown : ∀ piece ∈ own, piece.isComment = false)
    {needle : String} (hne : needle ≠ "") (hn : needle.toList <:+: inserted.toList) :
    ((Classification.of lexicon (before ++ (inserted ++ after))).findUncommented? needle
      (before ++ (inserted ++ after))).isSome = true := by
  obtain ⟨lead, tail, ht⟩ := hn
  refine (Classification.isSome_find?_iff (placed_of _ _)).mpr
    ⟨Lexicon.toList_ne_nil hne, byteLength (before.toList ++ lead),
      ⟨before.toList ++ lead, tail ++ after.toList, by simp [← ht], rfl⟩,
      clear_insert hc hcn h hown (by simp) ?_⟩
  rw [← byteLength_toList inserted, ← ht]
  simp
  omega

end

/-- At the end of a text there is code, or a block comment that nothing closes. -/
theorem endState_cases (text : String) :
    ((Classification.of lexicon text).endState = .code ∧
        ∃ pieces, Reads lexicon text.toList pieces []) ∨
      ((Classification.of lexicon text).endState = .inBlockComment ∧
        ∃ pieces left, Reads lexicon text.toList pieces left ∧ Unclosed lexicon left) := by
  rw [endState_of hc hcn]
  obtain ⟨pieces, left, hr, rfl | hl⟩ := exists_reads lexicon text.toList
  · refine .inl ⟨?_, pieces, hr⟩
    rw [hr.scanText, scanText]
    rfl
  · refine .inr ⟨?_, pieces, left, hr, hl⟩
    rw [hr.scanText, hl.scanText]
    rfl

/-- With a text put in front, its own segments come first and the others move. -/
theorem of_front {front text : String} {own : List Piece}
    (h : ReadsAs lexicon front.toList own) : Classification.of lexicon (front ++ text) =
      ⟨segmentsFrom 0 own ++
          (Classification.of lexicon text).segments.map (·.shift front.utf8ByteSize),
        (Classification.of lexicon text).endState⟩ := by
  have hi := of_insert hc hcn (.front text h)
  simpa [spliceSegments_zero (placed_of _ text)] using hi

/-- A block comment that is open at the end of a text covers the newline that follows and goes
on through its closing marker. -/
theorem Unclosed.exists_scanText_append {left : List Char} (h : Unclosed lexicon left)
    (more : List Char) : ∃ block later state,
      Scan.scanText lexicon (left ++ '\n' :: more) =
        ⟨.marked .blockComment (left ++ '\n' :: block) :: later, state⟩ ∧
      ((block = more ∧ later = []) ∨
        ∃ rest, takeThrough lexicon.blockClose.toList more = some (block, rest)) := by
  rw [h.scanText_append_newline hc hcn]
  simp only [scanRest, ScanState.carriedOver]
  cases ht : takeThrough lexicon.blockClose.toList more with
  | none => exact ⟨more, [], _, LineScan.followedBy_open [] _ _ _ _ _ _, .inl ⟨rfl, rfl⟩⟩
  | some found =>
    exact ⟨found.1, _, _, LineScan.followedBy_open [] _ _ _ _ _ _, .inr ⟨found.2, rfl⟩⟩

/-- What stands in a text stays in or out of its comments when a new line follows. -/
theorem clear_append_newline {text more : String} (hm : more.toList.head? = some '\n')
    {start stop : Nat} (hlt : start < stop) (hle : stop ≤ text.utf8ByteSize) :
    (Classification.of lexicon (text ++ more)).Clear Kind.isComment start stop ↔
      (Classification.of lexicon text).Clear Kind.isComment start stop := by
  obtain ⟨d, hm⟩ := List.head?_eq_some_iff.mp hm
  obtain ⟨pieces, left, hr, hl⟩ := exists_reads lexicon text.toList
  have hcut := hr.append_newline hc hm
  have hlen := hr.byteLength_add
  simp only [Classification.Clear, segments_of hc hcn, hr.scanText, hcut.scanText,
    LineScan.behind, segmentsFrom_append, List.forall_mem_append, Nat.zero_add]
  refine and_congr_right fun _ => ?_
  rcases hl with rfl | hl
  · have hnone : (scanText lexicon []).pieces = [] := by rw [scanText]
    simp only [hnone, segmentsFrom, List.not_mem_nil, false_implies, implies_true, iff_true]
    intro s hs _ hover
    have := (le_of_mem_segmentsFrom hs).1
    simp only [byteLength_nil] at hlen
    omega
  · obtain ⟨block, later, state, hs, _⟩ := hl.exists_scanText_append hc hcn d
    rw [hm, hs, hl.scanText]
    have hlater : ∀ s ∈ segmentsFrom (byteLength (pieces.flatMap Piece.text) +
        byteLength (left ++ '\n' :: block)) later,
        ¬ (start < s.span.stop ∧ s.span.start < stop) := by
      intro s hs hover
      have := (le_of_mem_segmentsFrom hs).1
      simp only [byteLength_append] at this
      omega
    have hlong : byteLength left < byteLength (left ++ '\n' :: block) := by
      have := Char.utf8Size_pos '\n'
      simp only [byteLength_append, byteLength_cons]
      omega
    simp only [segmentsFrom, List.forall_mem_cons, List.not_mem_nil, false_implies, implies_true,
      and_true]
    rw [and_iff_left fun s hs _ => hlater s hs]
    refine imp_congr_right fun _ => not_congr ?_
    omega

/-- Behind an open block comment nothing is visible before the first character that follows the
newlines: the closing marker has to be read. -/
theorem lt_start_of_unclosed {text more : String} {pieces : List Piece} {left lead rest : List Char}
    (hr : Reads lexicon text.toList pieces left) (hl : Unclosed lexicon left)
    (hm : more.toList = '\n' :: (lead ++ rest)) (hlead : ∀ c ∈ lead, c = '\n') {start stop : Nat}
    (hclear : (Classification.of lexicon (text ++ more)).Clear Kind.isComment start stop)
    (hlt : start < stop) (hgt : text.utf8ByteSize < stop)
    (hle : stop ≤ (text ++ more).utf8ByteSize) :
    text.utf8ByteSize + byteLength ('\n' :: lead) < start := by
  obtain ⟨block, later, state, hs, hb⟩ := hl.exists_scanText_append hc hcn (lead ++ rest)
  have hcut := hr.append_newline hc hm
  have hlen := hr.byteLength_add
  have hopen := hclear ⟨.blockComment, byteLength (pieces.flatMap Piece.text),
    byteLength (pieces.flatMap Piece.text) + byteLength (left ++ '\n' :: block)⟩ (by
      rw [segments_of hc hcn, hcut.scanText, hm, hs]
      simp [LineScan.behind, segmentsFrom_append, segmentsFrom]) rfl
  have hsize : (text ++ more).utf8ByteSize = text.utf8ByteSize + byteLength more.toList := by simp
  simp only [byteLength_append, byteLength_cons, not_and, Nat.not_lt] at hopen
  rw [hsize, hm] at hle
  simp only [byteLength_append, byteLength_cons] at hle ⊢
  have hpast : ∀ c ∈ lexicon.blockClose.toList, c ∉ lead := by
    intro c hmem hin
    exact hcn (hlead c hin ▸ hmem)
  rcases hb with ⟨rfl, _⟩ | ⟨left', ht⟩
  · simp only [byteLength_append] at hopen
    omega
  · obtain ⟨c, hcm⟩ := List.exists_mem_of_ne_nil _ (Lexicon.toList_ne_nil hc)
    have hmem := (suffix_of_takeThrough ht).subset hcm
    rcases List.append_eq_append_iff.mp (takeThrough_append ht) with ⟨z, rfl, _⟩ | ⟨z, rfl, _⟩
    · exact absurd (List.mem_append_left z hmem) (hpast c hcm)
    · have hz : z ≠ [] := by
        rintro rfl
        exact hpast c hcm (by simpa using hmem)
      have := Nat.pos_of_ne_zero (mt byteLength_eq_zero_iff.mp hz)
      simp only [byteLength_append] at hopen
      omega

/-- What a text writes outside comments stands outside comments when a new line follows. -/
theorem isSome_findUncommented?_append {text more needle : String}
    (hm : more.toList.head? = some '\n')
    (h : ((Classification.of lexicon text).findUncommented? needle text).isSome = true) :
    ((Classification.of lexicon (text ++ more)).findUncommented? needle
      (text ++ more)).isSome = true := by
  obtain ⟨hne, start, ⟨before, after, ht, rfl⟩, hclear⟩ :=
    (Classification.isSome_find?_iff (placed_of _ _)).mp h
  have hle : byteLength before + byteLength needle.toList ≤ text.utf8ByteSize := by
    rw [← byteLength_toList text, ht]
    simp
  have hpos : 0 < byteLength needle.toList :=
    Nat.pos_of_ne_zero (mt byteLength_eq_zero_iff.mp hne)
  exact (Classification.isSome_find?_iff (placed_of _ _)).mpr
    ⟨hne, _, ⟨before, after ++ more.toList, by simp [ht], rfl⟩,
      (clear_append_newline hc hcn hm (by omega) hle).mpr hclear⟩

end
end Graft.Scan
