import Graft.Proofs.Scan.Marker
import Graft.Proofs.Scan.OnLine
import Graft.Proofs.Text.Boundary
import Graft.Scan.Cursor

/-! # The loop that scans a line

A turn of the loop does one of seven things (`Moves`), and none of them cuts the line inside a
character or leaves the loop early.  A turn keeps what will have been found in the end
(`Cursor.outlook`), which at the start is the scan of the line.  It need not move the cursor on,
as one of the two block markers may be empty, but then it changes between code and comment in
the direction in which that marker does; so what is left of the line, counted twice, and the
state together become less with every turn (`Cursor.weight`).
-/
namespace Graft.Scan
open Graft.Text
variable {lexicon : Lexicon}

namespace Lexicon

theorem closingQuote?_of_literalState? {c : Char} {state : ScanState}
    (h : lexicon.literalState? c = some state) :
    ∃ kind, lexicon.literalKind? c = some kind ∧ lexicon.closingQuote? state = some (c, kind) := by
  unfold literalState? at h
  unfold literalKind?
  split at h
  · next hc =>
    cases h
    exact ⟨.stringLiteral, by simp [hc], by simp [closingQuote?, hc]⟩
  · split at h
    · next hs hc =>
      cases h
      exact ⟨.charLiteral, by rw [if_neg hs, if_pos hc], by simp [closingQuote?, hc]⟩
    · cases h

theorem literalKind?_of_literalState?_eq_none {c : Char}
    (h : lexicon.literalState? c = none) : lexicon.literalKind? c = none := by
  unfold literalState? at h
  unfold literalKind?
  split at h
  · cases h
  · split at h
    · cases h
    · next hs hc => rw [if_neg hs, if_neg hc]

theorem opensBlock_blockOpen (hb : lexicon.hasBlocks = true) (rest : List Char) :
    lexicon.opensBlock (lexicon.blockOpen.toList ++ rest) = true := by
  simp [opensBlock, hb]

theorem takeBlock_blockOpen (lexicon : Lexicon) (rest : List Char) :
    lexicon.takeBlock (lexicon.blockOpen.toList ++ rest) =
      (takeThrough lexicon.blockClose.toList rest).map fun (body, left) =>
        (lexicon.blockOpen.toList ++ body, left) := by
  rw [takeBlock, List.drop_left]

end Lexicon

/-! ## One turn -/

section
variable (hb : lexicon.hasBlocks = true) {rest : List Char}
  (hne : lexicon.blockOpen.toList ++ rest ≠ [])
  (hl : lexicon.opensLineComment (lexicon.blockOpen.toList ++ rest) = false)
include hb hne hl

theorem scanCode_blockOpen_unclosed (ht : takeThrough lexicon.blockClose.toList rest = none) :
    scanCode lexicon (lexicon.blockOpen.toList ++ rest) =
      ⟨[.marked .blockComment (lexicon.blockOpen.toList ++ rest)], .inBlockComment⟩ := by
  have ho := Lexicon.opensBlock_blockOpen hb rest
  have htake := lexicon.takeBlock_blockOpen rest
  obtain ⟨first, tail, he⟩ := List.exists_cons_of_ne_nil hne
  rw [he] at hl ho htake ⊢
  exact scanCode_unclosed hl ho (by rw [htake, ht]; rfl)

theorem scanCode_blockOpen_closed {body left : List Char}
    (ht : takeThrough lexicon.blockClose.toList rest = some (body, left)) :
    scanCode lexicon (lexicon.blockOpen.toList ++ rest) =
      (scanCode lexicon left).push
        (.marked .blockComment (lexicon.blockOpen.toList ++ body)) := by
  have ho := Lexicon.opensBlock_blockOpen hb rest
  have htake := lexicon.takeBlock_blockOpen rest
  obtain ⟨first, tail, he⟩ := List.exists_cons_of_ne_nil hne
  rw [he] at hl ho htake ⊢
  exact scanCode_block hl ho (by rw [htake, ht]; rfl)

end

/-- What a turn does to a cursor and to what is left of the line in front of it. -/
inductive Moves (lexicon : Lexicon) : Cursor → List Char → Cursor → List Char → Prop
  | lineComment {c : Cursor} {rest : List Char} (hs : c.state = .code)
      (hl : lexicon.opensLineComment rest = true) :
      Moves lexicon c rest (c.enter .inLineComment (byteLength rest)) []
  | openBlock {c : Cursor} {rest : List Char} (hs : c.state = .code)
      (hl : lexicon.opensLineComment (lexicon.blockOpen.toList ++ rest) = false) :
      Moves lexicon c (lexicon.blockOpen.toList ++ rest)
        (c.enter .inBlockComment (byteLength lexicon.blockOpen.toList)) rest
  | openLiteral {c : Cursor} {first : Char} {rest : List Char} {state : ScanState}
      (hs : c.state = .code) (hl : lexicon.opensLineComment (first :: rest) = false)
      (ho : lexicon.opensBlock (first :: rest) = false)
      (hq : lexicon.literalState? first = some state) (hm : first ∈ rest) :
      Moves lexicon c (first :: rest) (c.enter state first.utf8Size) rest
  | code {c : Cursor} {first : Char} {rest : List Char} (hs : c.state = .code)
      (hl : lexicon.opensLineComment (first :: rest) = false)
      (ho : lexicon.opensBlock (first :: rest) = false)
      (hq : lexicon.takeLiteral first rest = none) :
      Moves lexicon c (first :: rest) { c with pos := c.pos + first.utf8Size } rest
  | closeBlock {c : Cursor} {rest taken left : List Char} (hs : c.state = .inBlockComment)
      (ht : takeThrough lexicon.blockClose.toList rest = some (taken, left)) :
      Moves lexicon c rest
        { c.complete .blockComment (c.pos + byteLength taken) with closed := true } left
  | unclosed {c : Cursor} {rest : List Char} (hs : c.state = .inBlockComment)
      (ht : takeThrough lexicon.blockClose.toList rest = none) :
      Moves lexicon c rest { c with pos := c.pos + byteLength rest } []
  | closeLiteral {c : Cursor} {rest taken left : List Char} {quote : Char} {kind : Kind}
      (hq : lexicon.closingQuote? c.state = some (quote, kind))
      (ht : takeThrough [quote] rest = some (taken, left)) :
      Moves lexicon c rest (c.complete kind (c.pos + byteLength taken)) left

namespace Cursor

/-- A cursor between two characters of a line, with what is left of the line behind it: no more
of a line comment, and in a literal its closing quote. -/
structure Stands (lexicon : Lexicon) (line : List Char) (c : Cursor) (rest : List Char) :
    Prop where
  ahead : sliceFrom? c.pos line = some rest
  lineComment : c.state = .inLineComment → rest = []
  literal : ∀ quote kind, lexicon.closingQuote? c.state = some (quote, kind) → quote ∈ rest

/-- In code and in a block comment anything may be left of the line. -/
theorem Stands.of_ahead {line rest : List Char} {c : Cursor}
    (ahead : sliceFrom? c.pos line = some rest)
    (hs : c.state = .code ∨ c.state = .inBlockComment) : Stands lexicon line c rest := by
  refine ⟨ahead, fun hd => ?_, fun quote kind hq => ?_⟩
  · rcases hs with h | h <;> simp [h] at hd
  · rcases hs with h | h <;> simp [h, Lexicon.closingQuote?] at hq

namespace Stands
variable {line rest : List Char} {c : Cursor} (h : Stands lexicon line c rest)
include h

theorem pos_add : c.pos + byteLength rest = byteLength line := by
  obtain ⟨front, rfl, hp⟩ := sliceFrom?_eq_some_iff.mp h.ahead
  rw [byteLength_append, hp]

theorem pos_lt_iff : c.pos < byteLength line ↔ rest ≠ [] := by
  rw [← h.pos_add, ne_eq, ← byteLength_eq_zero_iff]
  omega

end Stands

section
variable {line rest : List Char} {c : Cursor}
  (hend : c.pos + byteLength rest = byteLength line)
include hend

theorem exists_moves_inCode (hs : c.state = .code) (hne : rest ≠ []) :
    ∃ d left, c.turnInCode lexicon line rest = .next d ∧ Moves lexicon c rest d left := by
  obtain ⟨first, rest, rfl⟩ := List.exists_cons_of_ne_nil hne
  unfold turnInCode
  rw [← hend]
  by_cases hl : lexicon.opensLineComment (first :: rest) = true
  · exact ⟨_, [], if_pos hl, .lineComment hs hl⟩
  · rw [if_neg hl]
    rw [Bool.not_eq_true] at hl
    by_cases hp : lexicon.blockOpen.toList.isPrefixOf (first :: rest) = true
    · obtain ⟨left, he⟩ := List.isPrefixOf_iff_prefix.mp hp
      rw [if_pos hp]
      rw [← he] at hl ⊢
      exact ⟨_, left, rfl, .openBlock hs hl⟩
    · have ho : lexicon.opensBlock (first :: rest) = false := by simp [Lexicon.opensBlock, hp]
      have hslice : sliceFrom? first.utf8Size (first :: rest) = some rest :=
        sliceFrom?_eq_some_iff.mpr ⟨[first], rfl, by simp⟩
      rw [if_neg hp]
      cases hq : lexicon.literalState? first with
      | none =>
        have hkind := Lexicon.literalKind?_of_literalState?_eq_none hq
        exact ⟨_, rest, by simp only [hq],
          .code hs hl ho (Lexicon.takeLiteral_eq_none_iff.mpr (.inl hkind))⟩
      | some state =>
        by_cases hm : first ∈ rest
        · exact ⟨_, rest, by simp [hq, hslice, hm], .openLiteral hs hl ho hq hm⟩
        · exact ⟨_, rest, by simp [hq, hslice, hm],
            .code hs hl ho (Lexicon.takeLiteral_eq_none_iff.mpr (.inr hm))⟩

theorem exists_moves_inBlock (hs : c.state = .inBlockComment) (hne : rest ≠ []) :
    ∃ d left, c.turnInBlock lexicon line rest = .next d ∧ Moves lexicon c rest d left := by
  unfold turnInBlock
  rw [← hend]
  cases hf : firstPlace? lexicon.blockClose.toList rest with
  | none => exact ⟨_, [], rfl, .unclosed hs (takeThrough_of_firstPlace?_eq_none hf)⟩
  | some distance =>
    obtain ⟨taken, left, ht, hsize⟩ := exists_takeThrough hne hf
    dsimp only
    rw [← hsize]
    exact ⟨_, left, rfl, .closeBlock hs ht⟩

omit hend in
theorem exists_moves_inLiteral {quote : Char} {kind : Kind}
    (hq : lexicon.closingQuote? c.state = some (quote, kind)) (hm : quote ∈ rest) :
    ∃ d left, c.turnInLiteral lexicon line rest = .next d ∧ Moves lexicon c rest d left := by
  unfold turnInLiteral
  simp only [hq]
  cases hf : firstPlace? [quote] rest with
  | none =>
    have hnone := takeThrough_of_firstPlace?_eq_none hf
    exact absurd hm (takeThrough_singleton_eq_none_iff.mp hnone)
  | some distance =>
    obtain ⟨taken, left, ht, hsize⟩ := exists_takeThrough (List.ne_nil_of_mem hm) hf
    have hwidth : byteLength taken = distance + quote.utf8Size := by simpa using hsize
    dsimp only
    rw [← hwidth]
    exact ⟨_, left, rfl, .closeLiteral hq ht⟩

end

/-- Every turn in front of the end of the line is one of the seven. -/
theorem Stands.exists_moves {line rest : List Char} {c : Cursor}
    (h : Stands lexicon line c rest) (hne : rest ≠ []) :
    ∃ d left, c.turn lexicon line = .next d ∧ Moves lexicon c rest d left := by
  unfold turn
  rw [h.ahead]
  cases hs : c.state with
  | code => exact exists_moves_inCode h.pos_add hs hne
  | inLineComment => exact absurd (h.lineComment hs) hne
  | inBlockComment => exact exists_moves_inBlock h.pos_add hs hne
  | inStringLiteral =>
    have hq : lexicon.closingQuote? c.state = some (lexicon.stringQuote, .stringLiteral) := by
      rw [hs]
      rfl
    exact exists_moves_inLiteral hq (h.literal _ _ hq)
  | inCharLiteral =>
    have hq : lexicon.closingQuote? c.state = some (lexicon.charQuote, .charLiteral) := by
      rw [hs]
      rfl
    exact exists_moves_inLiteral hq (h.literal _ _ hq)

end Cursor

/-! ## What a turn keeps -/

namespace Moves
variable {c d : Cursor} {rest left : List Char} (h : Moves lexicon c rest d left)
include h

/-- The cursor moves on by the bytes that it leaves behind. -/
theorem exists_taken : ∃ taken, rest = taken ++ left ∧ d.pos = c.pos + byteLength taken := by
  cases h with
  | lineComment hs hl => exact ⟨rest, (List.append_nil rest).symm, rfl⟩
  | openBlock hs hl => exact ⟨lexicon.blockOpen.toList, rfl, rfl⟩
  | openLiteral hs hl ho hq hm => exact ⟨[_], rfl, rfl⟩
  | code hs hl ho hq => exact ⟨[_], rfl, rfl⟩
  | closeBlock hs ht => exact ⟨_, (takeThrough_append ht).symm, rfl⟩
  | unclosed hs ht => exact ⟨rest, (List.append_nil rest).symm, rfl⟩
  | closeLiteral hq ht => exact ⟨_, (takeThrough_append ht).symm, rfl⟩

theorem stands {line : List Char} (hc : c.Stands lexicon line rest) :
    d.Stands lexicon line left := by
  have ahead : sliceFrom? d.pos line = some left := by
    obtain ⟨taken, rfl, hp⟩ := h.exists_taken
    obtain ⟨front, rfl, hfront⟩ := sliceFrom?_eq_some_iff.mp hc.ahead
    exact sliceFrom?_eq_some_iff.mpr ⟨front ++ taken, by simp, by simp [hp, hfront]⟩
  cases h with
  | lineComment hs hl =>
    exact ⟨ahead, fun _ => rfl, fun _ _ hd => by simp [Lexicon.closingQuote?] at hd⟩
  | openBlock hs hl => exact .of_ahead ahead (.inr rfl)
  | openLiteral hs hl ho hq hm =>
    obtain ⟨kind, _, hk⟩ := Lexicon.closingQuote?_of_literalState? hq
    refine ⟨ahead, fun hd => ?_, fun quote kind hd => ?_⟩
    · rw [Cursor.state_enter] at hd
      simp [hd, Lexicon.closingQuote?] at hk
    · rw [Cursor.state_enter, hk] at hd
      cases hd
      exact hm
  | code hs hl ho hq => exact .of_ahead ahead (.inl hs)
  | closeBlock hs ht => exact .of_ahead ahead (.inl rfl)
  | unclosed hs ht => exact .of_ahead ahead (.inr hs)
  | closeLiteral hq ht => exact .of_ahead ahead (.inl rfl)

end Moves

namespace Cursor

/-- Twice what is left of the line, and one more in the state that a turn may change without
moving on: in code if nothing opens a comment, elsewhere if nothing closes one. -/
def weight (lexicon : Lexicon) (c : Cursor) (rest : List Char) : Nat :=
  2 * byteLength rest + if c.state = .code ↔ lexicon.blockOpen = "" then 1 else 0

section
variable (lexicon : Lexicon) (c : Cursor)

/-- What a scan finds from inside a comment or literal on, given where this one ends. -/
def outlookFrom (kind : Kind) (rest : List Char) :
    Option (List Char × List Char) → List Segment × ScanState
  | none => (c.found ++ [⟨kind, c.opened, c.pos + byteLength rest⟩], c.state)
  | some (taken, left) =>
    (c.found ++ ⟨kind, c.opened, c.pos + byteLength taken⟩ ::
        segmentsFrom (c.pos + byteLength taken) (scanCode lexicon left).pieces,
      (scanCode lexicon left).state)

/-- All that will have been found, and the state, at the end of the line. -/
def outlook (rest : List Char) : List Segment × ScanState :=
  match c.state with
  | .code =>
    (c.found ++ segmentsFrom c.pos (scanCode lexicon rest).pieces, (scanCode lexicon rest).state)
  | .inLineComment => c.outlookFrom lexicon .lineComment rest none
  | .inBlockComment =>
    c.outlookFrom lexicon .blockComment rest (takeThrough lexicon.blockClose.toList rest)
  | .inStringLiteral =>
    c.outlookFrom lexicon .stringLiteral rest (takeThrough [lexicon.stringQuote] rest)
  | .inCharLiteral =>
    c.outlookFrom lexicon .charLiteral rest (takeThrough [lexicon.charQuote] rest)

end

theorem outlook_of_closingQuote? {c : Cursor} {quote : Char} {kind : Kind}
    (h : lexicon.closingQuote? c.state = some (quote, kind)) (rest : List Char) :
    c.outlook lexicon rest = c.outlookFrom lexicon kind rest (takeThrough [quote] rest) := by
  unfold outlook
  unfold Lexicon.closingQuote? at h
  split at h
  · next hs =>
    cases h
    rw [hs]
  · next hs =>
    cases h
    rw [hs]
  all_goals cases h

/-- At the end of the line nothing is to be found any more. -/
theorem Stands.outlook_nil {line : List Char} {c : Cursor} (h : c.Stands lexicon line []) :
    c.outlook lexicon [] = (c.segments line, c.state) := by
  have hpos : c.pos = byteLength line := h.pos_add
  have hquote := h.literal
  unfold outlook segments
  cases hs : c.state with
  | code => simp [scanCode, segmentsFrom]
  | inLineComment => simp [outlookFrom, hpos, hs]
  | inBlockComment => simp [outlookFrom, takeThrough, hpos, hs]
  | inStringLiteral => simp [hs, Lexicon.closingQuote?] at hquote
  | inCharLiteral => simp [hs, Lexicon.closingQuote?] at hquote

end Cursor

namespace Moves
variable {c d : Cursor} {rest left : List Char} (h : Moves lexicon c rest d left)
  (hb : lexicon.hasBlocks = true) (hne : rest ≠ [])
include h hb hne

theorem weight_lt : d.weight lexicon left < c.weight lexicon rest := by
  obtain ⟨taken, htext, _⟩ := h.exists_taken
  have hsize : byteLength rest = byteLength taken + byteLength left := by
    rw [htext, byteLength_append]
  have hrest : byteLength rest ≠ 0 := mt byteLength_eq_zero_iff.mp hne
  by_cases hlt : byteLength left < byteLength rest
  · unfold Cursor.weight
    split <;> split <;> omega
  · -- only a marker that is empty leaves the cursor where it is
    have hstays : rest = left := by
      obtain rfl : taken = [] := byteLength_eq_zero_iff.mp (by omega)
      exact htext
    have hnothing {delimiter body : List Char}
        (ht : takeThrough delimiter rest = some (body, left)) : delimiter = [] := by
      have hbody : body = [] := by
        have := takeThrough_append ht
        rwa [hstays, List.append_left_eq_self] at this
      exact List.suffix_nil.mp (hbody ▸ suffix_of_takeThrough ht)
    cases h with
    | lineComment hs hl => exact absurd hstays hne
    | openBlock hs hl =>
      have hempty : lexicon.blockOpen = "" := by simpa using hstays
      simp [Cursor.weight, hs, hempty]
    | openLiteral hs hl ho hq hm => simp at hstays
    | code hs hl ho hq => simp at hstays
    | closeBlock hs ht =>
      have hclose : lexicon.blockClose = "" := String.toList_eq_nil_iff.mp (hnothing ht)
      have hopen : lexicon.blockOpen ≠ "" := by simpa [Lexicon.hasBlocks, hclose] using hb
      simp [Cursor.weight, hs, hopen, hstays]
    | unclosed hs ht => exact absurd hstays hne
    | closeLiteral hq ht => cases hnothing ht

theorem outlook_eq : d.outlook lexicon left = c.outlook lexicon rest := by
  cases h with
  | lineComment hs hl =>
    obtain ⟨first, rest, rfl⟩ := List.exists_cons_of_ne_nil hne
    simp [Cursor.outlook, Cursor.outlookFrom, hs, scanCode_lineComment hl, segmentsFrom,
      Cursor.enter]
  | openBlock hs hl =>
    cases ht : takeThrough lexicon.blockClose.toList left with
    | none =>
      have hscan := scanCode_blockOpen_unclosed hb hne hl ht
      simp [Cursor.outlook, Cursor.outlookFrom, hs, ht, hscan, segmentsFrom, Cursor.enter,
        Nat.add_assoc]
    | some found =>
      have hscan := scanCode_blockOpen_closed hb hne hl ht
      simp [Cursor.outlook, Cursor.outlookFrom, hs, ht, hscan, segmentsFrom, Cursor.enter,
        Nat.add_assoc]
  | @openLiteral first left state hs hl ho hq hm =>
    obtain ⟨kind, hk, hclose⟩ := Lexicon.closingQuote?_of_literalState? hq
    rw [Cursor.outlook_of_closingQuote? hclose]
    cases ht : takeThrough [first] left with
    | none => exact absurd hm (takeThrough_singleton_eq_none_iff.mp ht)
    | some found =>
      have hliteral : lexicon.takeLiteral first left = some (kind, first :: found.1, found.2) := by
        simp [Lexicon.takeLiteral, hk, ht]
      simp [Cursor.outlook, Cursor.outlookFrom, hs, scanCode_literal hl ho hliteral, segmentsFrom,
        Cursor.enter, Nat.add_assoc]
  | code hs hl ho hq =>
    simp [Cursor.outlook, hs, scanCode_code hl ho hq, segmentsFrom]
  | closeBlock hs ht =>
    simp [Cursor.outlook, Cursor.outlookFrom, hs, ht, Cursor.complete]
  | unclosed hs ht =>
    simp [Cursor.outlook, Cursor.outlookFrom, hs, ht, takeThrough]
  | closeLiteral hq ht =>
    rw [Cursor.outlook_of_closingQuote? hq, ht]
    simp [Cursor.outlook, Cursor.outlookFrom, Cursor.complete]

end Moves

/-- On a line that starts in a block comment the cursor is in that comment until it has closed
one, and whether the line closes one does not change. -/
theorem Moves.interior {c d : Cursor} {rest left : List Char} (h : Moves lexicon c rest d left)
    (hc : c.closed = false → c.state = .inBlockComment) :
    (d.closed = false → d.state = .inBlockComment) ∧
      (!d.closed && (takeThrough lexicon.blockClose.toList left).isNone) =
        (!c.closed && (takeThrough lexicon.blockClose.toList rest).isNone) := by
  cases hclosed : c.closed with
  | true =>
    have hd : d.closed = true := by
      cases h <;> first | rfl | exact hclosed
    simp [hd]
  | false =>
    have hopen := hc hclosed
    cases h with
    | lineComment hs hl => simp [hs] at hopen
    | openBlock hs hl => simp [hs] at hopen
    | openLiteral hs hl ho hq hm => simp [hs] at hopen
    | code hs hl ho hq => simp [hs] at hopen
    | closeBlock hs ht => simp [ht]
    | unclosed hs ht => simp [hs, hclosed, ht, takeThrough]
    | closeLiteral hq ht => simp [hopen, Lexicon.closingQuote?] at hq

/-! ## The whole loop -/

namespace Cursor
variable {line rest : List Char} {c : Cursor}

/-- However many turns the loop has taken, the cursor stands where the line can be cut. -/
theorem Stands.of_after (h : c.Stands lexicon line rest) {turns : Nat} {d : Cursor}
    (ha : after lexicon line turns c = some d) : ∃ left, d.Stands lexicon line left := by
  induction turns generalizing c rest with
  | zero =>
    cases ha
    exact ⟨rest, h⟩
  | succ turns ih =>
    rw [after] at ha
    split at ha
    · next hlt =>
      obtain ⟨e, left, ht, hm⟩ := h.exists_moves (h.pos_lt_iff.mp hlt)
      rw [ht] at ha
      exact ih (hm.stands h) ha
    · cases ha

/-- The loop comes to the end of the line, and what every turn keeps holds there. -/
theorem Stands.exists_after (hb : lexicon.hasBlocks = true) {Keeps : Cursor → List Char → Prop}
    (hk : ∀ {c d : Cursor} {rest left : List Char}, Moves lexicon c rest d left → rest ≠ [] →
      Keeps c rest → Keeps d left)
    (h : c.Stands lexicon line rest) (hc : Keeps c rest) :
    ∃ turns ≤ c.weight lexicon rest, ∃ last, after lexicon line turns c = some last ∧
      last.Stands lexicon line [] ∧ Keeps last [] := by
  induction hw : c.weight lexicon rest using Nat.strongRecOn generalizing c rest with
  | ind weight ih =>
    by_cases hne : rest = []
    · subst hne
      exact ⟨0, Nat.zero_le _, c, rfl, h, hc⟩
    · obtain ⟨d, left, ht, hm⟩ := h.exists_moves hne
      have hlt := hm.weight_lt hb hne
      rw [hw] at hlt
      obtain ⟨turns, hle, last, ha, hlast, hkeeps⟩ :=
        ih _ hlt (hm.stands h) (hk hm hne hc) rfl
      refine ⟨turns + 1, Nat.lt_of_le_of_lt hle hlt, last, ?_, hlast, hkeeps⟩
      rw [after, if_pos (h.pos_lt_iff.mpr hne), ht]
      exact ha

theorem stands_start (lexicon : Lexicon) (before : ScanState) (line : List Char) :
    (start before).Stands lexicon line line :=
  .of_ahead (sliceFrom?_eq_some_iff.mpr ⟨[], rfl, rfl⟩) before.carriedOver_cases

theorem outlook_start (lexicon : Lexicon) (before : ScanState) (line : List Char) :
    (start before).outlook lexicon line =
      ((scanLine lexicon before line).segments, (scanLine lexicon before line).state) := by
  rcases before.carriedOver_cases with h | h
  · simp [outlook, start, scanLine, h, LineScan.segments]
  · cases ht : takeThrough lexicon.blockClose.toList line <;>
      simp [outlook, outlookFrom, start, scanLine, scanBlock, h, ht, LineScan.segments,
        segmentsFrom]

theorem weight_start_le (lexicon : Lexicon) (before : ScanState) (line : List Char) :
    (start before).weight lexicon line ≤ 2 * byteLength line + 1 := by
  unfold weight
  split <;> omega

/-- What stays the same from the start of a line on: what will have been found at its end, and,
if it starts in a block comment, whether it closes one. -/
structure Keeps (lexicon : Lexicon) (before : ScanState) (line : List Char) (c : Cursor)
    (rest : List Char) : Prop where
  outlook : c.outlook lexicon rest = (start before).outlook lexicon line
  inBlock : before.carriedOver = .inBlockComment → c.closed = false → c.state = .inBlockComment
  interior : before.carriedOver = .inBlockComment →
    (!c.closed && (takeThrough lexicon.blockClose.toList rest).isNone) =
      (takeThrough lexicon.blockClose.toList line).isNone

theorem keeps_start (lexicon : Lexicon) (before : ScanState) (line : List Char) :
    (start before).Keeps lexicon before line line :=
  ⟨rfl, fun h _ => h, fun _ => Bool.true_and _⟩

theorem Keeps.moves (hb : lexicon.hasBlocks = true) {before : ScanState} {d : Cursor}
    {left : List Char} (h : Moves lexicon c rest d left) (hne : rest ≠ [])
    (hc : c.Keeps lexicon before line rest) : d.Keeps lexicon before line left where
  outlook := (h.outlook_eq hb hne).trans hc.outlook
  inBlock hs := (h.interior (hc.inBlock hs)).1
  interior hs := (h.interior (hc.inBlock hs)).2.trans (hc.interior hs)

theorem Keeps.interior_nil {before : ScanState} (h : c.Keeps lexicon before line []) :
    c.interior before = isInterior lexicon before line := by
  unfold Cursor.interior isInterior
  rcases before.carriedOver_cases with hs | hs
  · simp [hs]
  · rw [← h.interior hs]
    simp [takeThrough]

/-- The loop comes to the end of the line with all that the scan of the line finds. -/
theorem exists_end (hb : lexicon.hasBlocks = true) (before : ScanState) (line : List Char) :
    ∃ turns ≤ 2 * byteLength line + 1, ∃ last,
      after lexicon line turns (start before) = some last ∧ last.pos = byteLength line ∧
        last.segments line = (scanLine lexicon before line).segments ∧
          last.state = (scanLine lexicon before line).state ∧
            last.interior before = isInterior lexicon before line := by
  obtain ⟨turns, hle, last, ha, hlast, hkeeps⟩ :=
    (stands_start lexicon before line).exists_after hb (Keeps.moves hb)
      (keeps_start lexicon before line)
  have hfound := hkeeps.outlook
  rw [hlast.outlook_nil, outlook_start, Prod.mk.injEq] at hfound
  exact ⟨turns, Nat.le_trans hle (weight_start_le lexicon before line), last, ha, hlast.pos_add,
    hfound.1, hfound.2, hkeeps.interior_nil⟩

/-- A cursor from which nothing can go wrong.  The turn from there cuts the line where the
cursor stands and, in code, behind the next character: both lie between two characters. -/
structure Safe (lexicon : Lexicon) (line : String) (c : Cursor) : Prop where
  pos_le : c.pos ≤ line.utf8ByteSize
  boundary : IsBoundary line c.pos
  boundary_next : ∀ first more, sliceFrom? c.pos line.toList = some (first :: more) →
    c.pos + first.utf8Size ≤ line.utf8ByteSize ∧ IsBoundary line (c.pos + first.utf8Size)
  /-- The turn neither faults nor leaves the loop in the middle of the line. -/
  goesOn : c.pos < line.utf8ByteSize → ∃ d, c.turn lexicon line.toList = .next d
  /-- The quote that closes a literal stands ahead. -/
  closes : ∀ quote kind, lexicon.closingQuote? c.state = some (quote, kind) →
    ∃ rest, sliceFrom? c.pos line.toList = some rest ∧ quote ∈ rest

theorem Stands.safe {line : String} (h : c.Stands lexicon line.toList rest) :
    c.Safe lexicon line where
  pos_le := le_of_sliceFrom? h.ahead
  boundary := isSome_sliceFrom?_iff.mp (by rw [h.ahead]; rfl)
  boundary_next first more hf := by
    obtain ⟨front, ht, hp⟩ := sliceFrom?_eq_some_iff.mp hf
    have hnext : sliceFrom? (c.pos + first.utf8Size) line.toList = some more :=
      sliceFrom?_eq_some_iff.mpr ⟨front ++ [first], by simp [ht], by simp [hp]⟩
    exact ⟨le_of_sliceFrom? hnext, isSome_sliceFrom?_iff.mp (by rw [hnext]; rfl)⟩
  goesOn hlt := by
    rw [← byteLength_toList, h.pos_lt_iff] at hlt
    obtain ⟨d, _, ht, _⟩ := h.exists_moves hlt
    exact ⟨d, ht⟩
  closes quote kind hq := ⟨rest, h.ahead, h.literal quote kind hq⟩

end Cursor

/-! ## Reading a line with the cursor -/

/-- The loop comes to the end of every line, in a number of turns bounded by the length of the
line, without ever standing where it could fault, leave early or miss a closing quote; it finds
what the scan of the line finds, and that is no more than fits on the line. -/
theorem cursor_scans_line {lexicon : Lexicon}
    (hm : lexicon.blockOpen ≠ "" ∨ lexicon.blockClose ≠ "") (before : ScanState)
    (line : String) :
    let start := Cursor.start before
    let scan := scanLine lexicon before line.toList
    (∀ turns c, Cursor.after lexicon line.toList turns start = some c → c.Safe lexicon line) ∧
      (∃ turns ≤ 2 * line.utf8ByteSize + 1, ∃ last,
        Cursor.after lexicon line.toList turns start = some last ∧
          last.pos = line.utf8ByteSize ∧ last.segments line.toList = scan.segments ∧
            last.state.carriedOver = scan.state.carriedOver ∧
              last.interior before = isInterior lexicon before line.toList) ∧
      OnLine before line.utf8ByteSize scan.segments := by
  intro start scan
  have hb : lexicon.hasBlocks = true := by
    rcases hm with h | h <;> simp [Lexicon.hasBlocks, h]
  have hstart : start.Stands lexicon line.toList line.toList :=
    Cursor.stands_start lexicon before line.toList
  refine ⟨fun turns c ha => ?_, ?_, ?_⟩
  · obtain ⟨rest, hc⟩ := hstart.of_after ha
    exact hc.safe
  · obtain ⟨turns, hle, last, ha, hpos, hsegments, hstate, hinterior⟩ :=
      Cursor.exists_end hb before line.toList
    rw [byteLength_toList] at hle hpos
    exact ⟨turns, hle, last, ha, hpos, hsegments, congrArg ScanState.carriedOver hstate, hinterior⟩
  · rw [← byteLength_toList]
    exact onLine_scanLine lexicon before line.toList

/-- A comment that is open ends at the start, as nothing closes it; a quote of two bytes that
opens strings and characters alike; a comment that opens with the last character. -/
theorem cursor_scans_line_emptyMarker :
    let lexicon : Lexicon :=
      { blockOpen := "é", blockClose := "", stringQuote := '«', charQuote := '«' }
    (lexicon.blockOpen ≠ "" ∨ lexicon.blockClose ≠ "") ∧
      ∃ turns ≤ 15, ∃ last,
        Cursor.after lexicon "«a«é".toList turns (.start .inBlockComment) = some last ∧
          last.segments "«a«é".toList =
            [⟨.blockComment, 0, 0⟩, ⟨.stringLiteral, 0, 5⟩, ⟨.blockComment, 5, 7⟩] := by
  intro lexicon
  have hm : lexicon.blockOpen ≠ "" ∨ lexicon.blockClose ≠ "" := by decide
  obtain ⟨-, ⟨turns, hle, last, ha, -, hsegments, -⟩, -⟩ :=
    cursor_scans_line hm .inBlockComment "«a«é"
  exact ⟨hm, turns, hle, last, ha, hsegments.trans (by decide +kernel)⟩

section
variable (ho : lexicon.blockOpen = "") (hc : lexicon.blockClose = "") {line : List Char}
  (hne : line ≠ []) (hl : lexicon.opensLineComment line = false)
include ho hc hne hl

theorem Cursor.exists_turn_of_noMarkers {c : Cursor} (hpos : c.pos = 0)
    (hs : c.state = .code ∨ c.state = .inBlockComment) :
    ∃ d, c.turn lexicon line = .next d ∧ d.pos = 0 ∧
      (d.state = .code ∨ d.state = .inBlockComment) := by
  have hslice : sliceFrom? 0 line = some line := sliceFrom?_eq_some_iff.mpr ⟨[], rfl, rfl⟩
  obtain ⟨first, rest, rfl⟩ := List.exists_cons_of_ne_nil hne
  rcases hs with hs | hs
  · exact ⟨c.enter .inBlockComment 0, by simp [turn, turnInCode, hpos, hslice, hs, hl, ho], hpos,
      .inr rfl⟩
  · exact ⟨{ c.complete .blockComment 0 with closed := true },
      by simp [turn, turnInBlock, hpos, hslice, hs, hc, firstPlace?], rfl, .inl rfl⟩

/-- With neither marker the loop opens and closes comments at the start of the line for ever. -/
theorem Cursor.exists_after_of_noMarkers (turns : Nat) {c : Cursor} (hpos : c.pos = 0)
    (hs : c.state = .code ∨ c.state = .inBlockComment) :
    ∃ d, after lexicon line turns c = some d ∧ d.pos = 0 := by
  induction turns generalizing c with
  | zero => exact ⟨c, rfl, hpos⟩
  | succ turns ih =>
    obtain ⟨d, ht, hd, hstate⟩ := exists_turn_of_noMarkers ho hc hne hl hpos hs
    have hlt : c.pos < byteLength line := by
      have := mt byteLength_eq_zero_iff.mp hne
      omega
    rw [after, if_pos hlt, ht]
    exact ih hd hstate

end

end Graft.Scan
