import Graft.Proofs.Scan.OnePass
import Graft.Proofs.Scan.Segments
import Graft.Proofs.Text.Boundary

/-! # Well-formed classifications

The segments of a text are in order, keep clear of one another and lie between its characters.
Each starts and ends with the markers of its kind; only a block comment that runs to the end
of the text may lack its closing marker, and then the text ends inside it.  This holds for
every vocabulary, also where a marker is empty, holds a newline or starts another one.
-/
namespace Graft.Scan
open Graft.Text
variable {lexicon : Lexicon}

/-! ## Stretches of each kind -/

/-- A quote at both ends and none between them, all on one line. -/
def QuotedBy (quote : Char) (body : List Char) : Prop :=
  ∃ inner, body = quote :: (inner ++ [quote]) ∧ quote ∉ inner ∧ '\n' ∉ body

/-- A comment or literal with both of its ends, in front of what follows it. -/
def Closed (lexicon : Lexicon) (kind : Kind) (body after : List Char) : Prop :=
  match kind with
  | .lineComment => lexicon.lineComment.toList <+: body ∧ '\n' ∉ body ∧ LineEnd after
  | .blockComment =>
    ∃ inner, body = lexicon.blockOpen.toList ++ (inner ++ lexicon.blockClose.toList)
  | .stringLiteral => QuotedBy lexicon.stringQuote body
  | .charLiteral => QuotedBy lexicon.charQuote body

theorem quotedBy_of_takeThrough {quote : Char} {text body left : List Char}
    (hn : '\n' ∉ quote :: text) (h : takeThrough [quote] text = some (body, left)) :
    QuotedBy quote (quote :: body) := by
  have hm : quote ∈ text := by
    refine Decidable.not_not.mp fun hm => ?_
    simp [takeThrough_singleton_eq_none_iff.mpr hm] at h
  obtain ⟨inner, more, rfl, hi⟩ := List.eq_append_cons_of_mem hm
  obtain ⟨rfl, rfl⟩ : inner ++ [quote] = body ∧ more = left := by
    simpa [takeThrough_singleton hi] using h
  refine ⟨inner, rfl, hi, fun hl => hn ?_⟩
  rw [List.append_cons]
  exact List.mem_append_left more hl

theorem Lexicon.closed_takeLiteral {c : Char} {text literal left : List Char} {kind : Kind}
    (hn : '\n' ∉ c :: text) (h : lexicon.takeLiteral c text = some (kind, literal, left))
    (after : List Char) : Closed lexicon kind literal after := by
  unfold takeLiteral at h
  split at h
  · cases h
  · next k hk =>
    obtain ⟨⟨body, rest⟩, ht, he⟩ := Option.map_eq_some_iff.mp h
    obtain ⟨rfl, rfl, rfl⟩ := by simpa using he
    have hq := quotedBy_of_takeThrough hn ht
    unfold literalKind? at hk
    split at hk
    · next hs =>
      cases hk
      rwa [Closed, ← hs]
    · split at hk
      · next hc =>
        cases hk
        rwa [Closed, ← hc]
      · cases hk

theorem Lexicon.closed_takeBlock {text block left : List Char}
    (h : lexicon.takeBlock text = some (block, left)) (after : List Char) :
    Closed lexicon .blockComment block after := by
  obtain ⟨⟨body, rest⟩, ht, he⟩ := Option.map_eq_some_iff.mp h
  obtain ⟨rfl, rfl⟩ := by simpa using he
  obtain ⟨inner, rfl⟩ := suffix_of_takeThrough ht
  exact ⟨inner, rfl⟩

/-- More lines change nothing behind a stretch. -/
theorem Closed.append_newline {kind : Kind} {body after : List Char}
    (h : Closed lexicon kind body after) (more : List Char) :
    Closed lexicon kind body (after ++ '\n' :: more) := by
  cases kind with
  | lineComment => exact ⟨h.1, h.2.1, h.2.2.append_newline more⟩
  | blockComment => exact h
  | stringLiteral => exact h
  | charLiteral => exact h

/-! ## Cutting line by line -/

/-- A scan from a position in code, all of whose marked pieces are complete, but for a block
comment that is still open behind the last of them. -/
inductive WellCut (lexicon : Lexicon) : LineScan → Prop
  | done {state : ScanState} (h : state ≠ .inBlockComment) : WellCut lexicon ⟨[], state⟩
  | code (c : Char) {scan : LineScan} (later : WellCut lexicon scan) :
      WellCut lexicon (scan.push (.code c))
  | closed {kind : Kind} {body : List Char} {scan : LineScan}
      (fits : Closed lexicon kind body scan.text) (hne : body ≠ [])
      (later : WellCut lexicon scan) : WellCut lexicon (scan.push (.marked kind body))
  | opened {body : List Char} (fits : lexicon.blockOpen.toList <+: body) (hne : body ≠ []) :
      WellCut lexicon ⟨[.marked .blockComment body], .inBlockComment⟩

/-- A scan from a position in a block comment. -/
inductive Continues (lexicon : Lexicon) : LineScan → Prop
  | closed {block : List Char} {scan : LineScan} (fits : lexicon.blockClose.toList <:+ block)
      (later : WellCut lexicon scan) :
      Continues lexicon (scan.push (.marked .blockComment block))
  | opened (block : List Char) :
      Continues lexicon ⟨[.marked .blockComment block], .inBlockComment⟩

theorem wellCut_scanCode {line : List Char} (hn : '\n' ∉ line) :
    WellCut lexicon (scanCode lexicon line) := by
  fun_induction scanCode lexicon line with
  | case1 => exact .done (by simp)
  | case2 c rest hl =>
    have hend : WellCut lexicon ⟨[], .inLineComment⟩ := .done (by simp)
    have hfits : Closed lexicon .lineComment (c :: rest) [] :=
      ⟨List.isPrefixOf_iff_prefix.mp hl, hn, .inl rfl⟩
    exact .closed hfits (List.cons_ne_nil c rest) hend
  | case3 c rest hl ho hb =>
    exact .opened (Lexicon.prefix_of_opensBlock ho) (List.cons_ne_nil c rest)
  | case4 c rest hl ho block left hb ih =>
    have hs : block ++ left = c :: rest := Lexicon.takeBlock_append ho hb
    exact .closed (Lexicon.closed_takeBlock hb _) (Lexicon.ne_nil_of_takeBlock ho hb)
      (ih fun h => hn (by simp [← hs, h]))
  | case5 c rest hl ho hq ih => exact .code c (ih fun h => hn (by simp [h]))
  | case6 c rest hl ho kind literal left hq ih =>
    have hs : literal ++ left = c :: rest := Lexicon.takeLiteral_append hq
    exact .closed (Lexicon.closed_takeLiteral hn hq _) (Lexicon.ne_nil_of_takeLiteral hq)
      (ih fun h => hn (by simp [← hs, h]))

theorem continues_scanBlock {line : List Char} (hn : '\n' ∉ line) :
    Continues lexicon (scanBlock lexicon line) := by
  unfold scanBlock
  split
  · exact .opened line
  · next block left h =>
    have hleft : '\n' ∉ left := fun hm => hn (by simp [← takeThrough_append h, hm])
    exact .closed (suffix_of_takeThrough h) (wellCut_scanCode hleft)

theorem WellCut.endsOpen {scan : LineScan} (h : WellCut lexicon scan)
    (hs : scan.state = .inBlockComment) : scan.EndsOpen := by
  induction h with
  | done h => exact absurd hs h
  | code c later ih => exact (ih hs).push _
  | closed fits hne later ih => exact (ih hs).push _
  | opened fits hne => exact ⟨[], _, rfl⟩

theorem Continues.startsOpen {scan : LineScan} (h : Continues lexicon scan) :
    StartsOpen scan.pieces := by
  cases h with
  | closed fits later => exact ⟨_, _, rfl⟩
  | opened block => exact ⟨block, [], rfl⟩

/-- What is read behind the newline of a scan, from the state in which it ends. -/
structure Follows (lexicon : Lexicon) (state : ScanState) (next : LineScan) : Prop where
  code : state ≠ .inBlockComment → WellCut lexicon next
  block : state = .inBlockComment → Continues lexicon next

theorem WellCut.followedBy {scan next : LineScan} (h : WellCut lexicon scan)
    (hn : Follows lexicon scan.state next) : WellCut lexicon (scan.followedBy next) := by
  induction h with
  | done h =>
    rw [LineScan.followedBy_of_ne h]
    exact .code '\n' (hn.code h)
  | code c later ih =>
    rw [LineScan.push_followedBy later.endsOpen]
    exact .code c (ih hn)
  | closed fits hne later ih =>
    rw [LineScan.push_followedBy later.endsOpen]
    refine .closed ?_ hne (ih hn)
    rw [text_followedBy later.endsOpen fun hs => (hn.block hs).startsOpen]
    exact fits.append_newline next.text
  | @opened body fits hne =>
    obtain ⟨rest, rfl⟩ := fits
    have hnext := hn.block rfl
    cases hnext with
    | @closed block scan hclose later =>
      obtain ⟨lead, rfl⟩ := hclose
      have hj := LineScan.followedBy_open [] scan.pieces (lexicon.blockOpen.toList ++ rest)
        (lead ++ lexicon.blockClose.toList) .blockComment .blockComment scan.state
      have hfits : Closed lexicon .blockComment (lexicon.blockOpen.toList ++ rest ++
          '\n' :: (lead ++ lexicon.blockClose.toList)) scan.text := ⟨rest ++ '\n' :: lead, by simp⟩
      exact hj ▸ .closed hfits (by simp) later
    | opened block =>
      have hj := LineScan.followedBy_open [] [] (lexicon.blockOpen.toList ++ rest) block
        .blockComment .blockComment .inBlockComment
      exact hj ▸ .opened ⟨rest ++ '\n' :: block, by simp⟩ (by simp)

theorem Continues.followedBy {scan next : LineScan} (h : Continues lexicon scan)
    (hn : Follows lexicon scan.state next) : Continues lexicon (scan.followedBy next) := by
  cases h with
  | closed fits later =>
    rw [LineScan.push_followedBy later.endsOpen]
    exact .closed fits (later.followedBy hn)
  | opened block =>
    have hnext := hn.block rfl
    cases hnext with
    | @closed more scan hclose later =>
      have hj := LineScan.followedBy_open [] scan.pieces block more .blockComment .blockComment
        scan.state
      exact hj ▸ .closed (hclose.trans ⟨block ++ ['\n'], by simp⟩) later
    | opened more =>
      have hj := LineScan.followedBy_open [] [] block more .blockComment .blockComment
        .inBlockComment
      exact hj ▸ .opened _

theorem follows_scanLine (before : ScanState) {line : List Char} (hn : '\n' ∉ line) :
    Follows lexicon before (scanLine lexicon before line) := by
  constructor
  · intro h
    cases before <;> first | contradiction | exact wellCut_scanCode hn
  · rintro rfl
    exact continues_scanBlock hn

theorem follows_scanLines (before : ScanState) (line : List Char) (rest : List (List Char))
    (hn : ∀ l ∈ line :: rest, '\n' ∉ l) :
    Follows lexicon before (scanLines lexicon before (line :: rest)) := by
  induction rest generalizing before line with
  | nil => exact follows_scanLine before (hn line (by simp))
  | cons next rest ih =>
    obtain ⟨hline, hrest⟩ := List.forall_mem_cons.mp hn
    have hfirst := @follows_scanLine lexicon before line hline
    have hlater := ih (scanLine lexicon before line).state next hrest
    exact ⟨fun h => (hfirst.code h).followedBy hlater, fun h => (hfirst.block h).followedBy hlater⟩

/-- The lines of a text, put together, cut it into complete comments, literals and code. -/
theorem wellCut_lines (text : List Char) :
    WellCut lexicon (scanLines lexicon .code (lines text)) := by
  obtain ⟨line, rest, hl⟩ := List.exists_cons_of_ne_nil (lines_ne_nil text)
  rw [hl]
  refine (follows_scanLines .code line rest ?_).code (by simp)
  rw [← hl]
  exact fun l => notMem_of_mem_lines

/-! ## Segments -/

namespace WellCut
variable {scan : LineScan} (h : WellCut lexicon scan)
include h

theorem text_ne_nil {piece : Piece} (hp : piece ∈ scan.pieces) : piece.text ≠ [] := by
  induction h with
  | done h => simp at hp
  | code c later ih =>
    rcases List.mem_cons.mp hp with rfl | hp
    · exact List.cons_ne_nil _ _
    · exact ih hp
  | closed fits hne later ih =>
    rcases List.mem_cons.mp hp with rfl | hp
    · exact hne
    · exact ih hp
  | opened fits hne =>
    obtain rfl := List.mem_singleton.mp hp
    exact hne

/-- Every marked piece is complete, or the open block comment at the end. -/
theorem closed_or_open {before after : List Piece} {kind : Kind} {body : List Char}
    (hp : scan.pieces = before ++ .marked kind body :: after) :
    Closed lexicon kind body (after.flatMap Piece.text) ∨
      kind = .blockComment ∧ lexicon.blockOpen.toList <+: body ∧ after = [] ∧
        scan.state = .inBlockComment := by
  induction h generalizing before with
  | done h => simp at hp
  | code c later ih =>
    cases before with
    | nil => cases hp
    | cons first before => exact ih (List.cons.inj hp).2
  | closed fits hne later ih =>
    cases before with
    | nil =>
      cases hp
      exact .inl fits
    | cons first before => exact ih (List.cons.inj hp).2
  | opened fits hne =>
    cases before with
    | nil =>
      cases hp
      exact .inr ⟨rfl, fits, rfl, rfl⟩
    | cons first before => simp at hp

end WellCut

/-- Every text has its segments one behind the other. -/
theorem placed_of (lexicon : Lexicon) (text : String) :
    Placed (Classification.of lexicon text).segments := by
  rw [Classification.of, ofLines_lines]
  exact placed_segmentsFrom 0 fun _ => (wellCut_lines text.toList).text_ne_nil

namespace Classification

/-- The segments of a text as a list of comments and literals. -/
structure WellFormed (lexicon : Lexicon) (text : String) (c : Classification) : Prop where
  /-- Each segment holds a byte at least. -/
  nonempty : ∀ s ∈ c.segments, s.span.start < s.span.stop
  /-- Each starts behind the start, and not before the end, of those in front of it. -/
  ordered : c.segments.Pairwise fun a b =>
    a.span.start < b.span.start ∧ a.span.stop ≤ b.span.start
  within : ∀ s ∈ c.segments, s.span.stop ≤ text.utf8ByteSize
  boundary : ∀ s ∈ c.segments, IsBoundary text s.span.start ∧ IsBoundary text s.span.stop
  /-- Each is complete, or it is the last one, a block comment that is open at the end. -/
  complete : ∀ s ∈ c.segments, ∃ before body after, text.toList = before ++ (body ++ after) ∧
    s.span = ⟨byteLength before, byteLength before + byteLength body⟩ ∧
      (Closed lexicon s.kind body after ∨
        s.kind = .blockComment ∧ lexicon.blockOpen.toList <+: body ∧ after = [] ∧
          c.segments.getLast? = some s ∧ c.endState = .inBlockComment)
  /-- A text that ends inside a block comment has it as its last segment. -/
  openEnd : c.endState = .inBlockComment → ∃ s, c.segments.getLast? = some s ∧
    s.kind = .blockComment ∧ s.span.stop = text.utf8ByteSize

end Classification

theorem getLast?_segmentsFrom (offset : Nat) (before : List Piece) (kind : Kind)
    (body : List Char) :
    (segmentsFrom offset (before ++ [.marked kind body])).getLast? =
      some ⟨kind, offset + byteLength (before.flatMap Piece.text),
        offset + byteLength (before.flatMap Piece.text) + byteLength body⟩ := by
  simp [segmentsFrom_append, segmentsFrom]

namespace WellCut
variable {scan : LineScan} {text : String} (h : WellCut lexicon scan)
  (ht : scan.text = text.toList)
include h ht

theorem complete {s : Segment} (hs : s ∈ segmentsFrom 0 scan.pieces) :
    ∃ before body after, text.toList = before ++ (body ++ after) ∧
      s.span = ⟨byteLength before, byteLength before + byteLength body⟩ ∧
        (Closed lexicon s.kind body after ∨
          s.kind = .blockComment ∧ lexicon.blockOpen.toList <+: body ∧ after = [] ∧
            (segmentsFrom 0 scan.pieces).getLast? = some s ∧ scan.state = .inBlockComment) := by
  obtain ⟨before, body, after, hp, hstart, hstop⟩ := mem_segmentsFrom.mp hs
  have hspan : s.span = ⟨byteLength (before.flatMap Piece.text),
      byteLength (before.flatMap Piece.text) + byteLength body⟩ := by
    rw [Nat.zero_add] at hstart
    rw [← hstart, ← hstop]
  refine ⟨before.flatMap Piece.text, body, after.flatMap Piece.text, ?_, hspan, ?_⟩
  · rw [← ht, LineScan.text, hp]
    simp [Piece.text]
  · obtain hclosed | ⟨hk, hb, rfl, hstate⟩ := h.closed_or_open hp
    · exact .inl hclosed
    · refine .inr ⟨hk, hb, rfl, ?_, hstate⟩
      rw [hp, getLast?_segmentsFrom, Nat.zero_add, ← hspan]

theorem wellFormed :
    Classification.WellFormed lexicon text
      ⟨segmentsFrom 0 scan.pieces, scan.state.carriedOver⟩ := by
  have hplaced := placed_segmentsFrom 0 fun _ => h.text_ne_nil
  have hsplit := fun s (hs : s ∈ segmentsFrom 0 scan.pieces) => h.complete ht hs
  refine ⟨hplaced.start_lt, ?_, ?_, ?_, ?_, ?_⟩
  · refine hplaced.ordered.imp_of_mem fun {a b} ha _ hab => ?_
    exact ⟨Nat.lt_of_lt_of_le (hplaced.start_lt a ha) hab, hab⟩
  · intro s hs
    obtain ⟨before, body, after, htext, hspan, _⟩ := hsplit s hs
    rw [hspan, ← byteLength_toList, htext]
    simp only [byteLength_append]
    omega
  · intro s hs
    obtain ⟨before, body, after, htext, hspan, _⟩ := hsplit s hs
    rw [hspan]
    refine ⟨isBoundary_of_split htext, ?_⟩
    rw [← byteLength_append]
    exact isBoundary_of_split (htext.trans (List.append_assoc _ _ _).symm)
  · simpa only [carriedOver_eq_inBlockComment_iff] using hsplit
  · intro hstate
    obtain ⟨pieces, body, rfl⟩ := h.endsOpen (carriedOver_eq_inBlockComment_iff.mp hstate)
    refine ⟨_, getLast?_segmentsFrom 0 pieces .blockComment body, rfl, ?_⟩
    rw [← byteLength_toList, ← ht]
    simp [LineScan.text, Piece.text]

end WellCut

/-- The segments of a text are non-empty, in order, clear of one another, between characters,
and complete but for an open block comment at the end. -/
theorem wellFormed_of (lexicon : Lexicon) (text : String) :
    (Classification.of lexicon text).WellFormed lexicon text := by
  rw [Classification.of, ofLines_lines]
  refine (wellCut_lines text.toList).wellFormed ?_
  obtain ⟨line, rest, hl⟩ := List.exists_cons_of_ne_nil (lines_ne_nil text.toList)
  rw [hl, text_scanLines, ← hl, intercalate_lines]

/-- An empty closing marker closes a comment where the next line starts that is not empty. -/
example : Classification.of { blockClose := "" } "x /*\n\ny 'z'" =
    ⟨[⟨.blockComment, 2, 6⟩, ⟨.charLiteral, 8, 11⟩], .code⟩ := by
  decide +kernel

end Graft.Scan
