import Graft.Proofs.Scan.Reading
import Graft.Proofs.Scan.Segments

/-! # Cutting a text between two pieces

A text that is read up to some place is read in the same way when a new line starts behind
that place: a lone quote stays lone, a marker that was not there does not appear, and what
was closed stays closed.  So a text put in there, if it starts with a newline, leaves
everything before it as it was (`Reads.cut`).
-/
namespace Graft.Scan
open Graft.Text
variable {lexicon : Lexicon}

/-- A text without newlines that starts another lies on its first line. -/
theorem prefix_of_lineEnd {d line tail : List Char} (hd : '\n' ∉ d) (ht : LineEnd tail)
    (h : d <+: line ++ tail) : d <+: line := by
  rcases ht with rfl | ⟨rest, rfl⟩
  · simpa using h
  · exact prefix_of_prefix_append_cons hd h

/-- The first line of a text that is cut by a newline, next to the first line without the
cut. -/
theorem exists_cut {c : Char} (hc : c ≠ '\n') {a b line tail : List Char} (ht : LineEnd tail)
    (h : line ++ tail = a ++ b) (more : List Char) :
    ∃ line' tail', a ++ '\n' :: more = line' ++ tail' ∧ '\n' ∉ c :: line' ∧ LineEnd tail' ∧
      line' <+: line := by
  have hn : '\n' ∉ (cutLine (a ++ '\n' :: more)).1 := notMem_cutLine _
  refine ⟨_, _, (cutLine_append _).symm, by simp [Ne.symm hc, hn], lineEnd_cutLine _, ?_⟩
  have ha := prefix_of_prefix_append_cons hn (prefix_cutLine (a ++ '\n' :: more))
  exact prefix_of_lineEnd hn ht (h ▸ ha.trans (List.prefix_append a b))

theorem ne_newline {c : Char} {line : List Char} (hn : '\n' ∉ c :: line) : c ≠ '\n' :=
  fun h => hn (h ▸ List.mem_cons_self)

namespace Step
variable {c : Char} {line tail : List Char} (hn : '\n' ∉ c :: line) (ht : LineEnd tail)
  (hl : lexicon.opensLineComment (c :: line) = false)
include hn ht hl

/-- The markers of a block comment lie in it, so a cut behind it keeps both. -/
theorem block_cut (hc : lexicon.blockClose ≠ "") {block a b : List Char}
    (ho : lexicon.opensBlock (c :: line) = true)
    (hb : lexicon.takeBlock (c :: line ++ tail) = some (block, a ++ b)) (more : List Char) :
    Step lexicon (block ++ (a ++ '\n' :: more)) (.marked .blockComment block)
      (a ++ '\n' :: more) := by
  have hs := Step.block hn ht hl ho hb
  obtain ⟨d, block, rfl⟩ := List.exists_cons_of_ne_nil hs.text_ne_nil
  obtain ⟨rfl, hrest⟩ := List.cons.inj hs.text
  obtain ⟨line', tail', he, hn', ht', hp⟩ :=
    exists_cut (ne_newline hn) ht (hrest.symm.trans (List.append_assoc block a b).symm) more
  have hopen : lexicon.blockOpen.toList <+: d :: line' := by
    refine prefix_of_lineEnd (fun h => hn ((Lexicon.prefix_of_opensBlock ho).subset h)) ht' ?_
    rw [List.cons_append, ← he]
    exact (Lexicon.prefix_of_takeBlock hb).trans
      (List.cons_prefix_cons.mpr ⟨rfl, (List.prefix_append _ _).trans (List.prefix_append _ _)⟩)
  have hb' := Lexicon.takeBlock_taken hc hb (a ++ '\n' :: more)
  rw [List.cons_append, ← List.append_assoc, he] at hb' ⊢
  exact .block hn' ht' (Lexicon.opensLineComment_eq_false_anti
    (List.cons_prefix_cons.mpr ⟨rfl, hp⟩) hl) (Lexicon.opensBlock_congr ho hopen) hb'

/-- The closing quote lies before the cut, so the literal stays on its line. -/
theorem literal_cut {literal left a b : List Char} {kind : Kind}
    (ho : lexicon.opensBlock (c :: line) = false)
    (hq : lexicon.takeLiteral c line = some (kind, literal, left)) (hm : a ++ b = left ++ tail)
    (more : List Char) :
    Step lexicon (literal ++ (a ++ '\n' :: more)) (.marked kind literal) (a ++ '\n' :: more) := by
  obtain ⟨body, rfl, rfl, htaken⟩ := Lexicon.takeLiteral_taken hq
  have hm' : body ++ left ++ tail = body ++ a ++ b := by
    rw [List.append_assoc, List.append_assoc, hm]
  obtain ⟨line', tail', he, hn', ht', hp⟩ := exists_cut (ne_newline hn) ht hm' more
  have hbody : '\n' ∉ body := fun h => hn (List.mem_cons_of_mem c (List.mem_append_left left h))
  obtain ⟨left', rfl⟩ : body <+: line' := by
    refine prefix_of_lineEnd hbody ht' ?_
    rw [← he, List.append_assoc]
    exact List.prefix_append _ _
  have hrest : a ++ '\n' :: more = left' ++ tail' := by simpa using he
  have hp' : c :: (body ++ left') <+: c :: (body ++ left) := List.cons_prefix_cons.mpr ⟨rfl, hp⟩
  rw [List.cons_append, hrest, ← List.append_assoc]
  exact .literal hn' ht' (Lexicon.opensLineComment_eq_false_anti hp' hl)
    (Lexicon.opensBlock_eq_false_anti hp' ho) (htaken left')

/-- A marker that does not stand before the cut does not appear by it. -/
theorem code_cut {a b : List Char}
    (ho : lexicon.opensBlock (c :: line) = false) (hq : lexicon.takeLiteral c line = none)
    (hm : line ++ tail = a ++ b) (more : List Char) :
    Step lexicon (c :: (a ++ '\n' :: more)) (.code c) (a ++ '\n' :: more) := by
  obtain ⟨line', tail', he, hn', ht', hp⟩ := exists_cut (ne_newline hn) ht hm more
  have hp' : c :: line' <+: c :: line := List.cons_prefix_cons.mpr ⟨rfl, hp⟩
  rw [he]
  refine .code hn' ht' (Lexicon.opensLineComment_eq_false_anti hp' hl)
    (Lexicon.opensBlock_eq_false_anti hp' ho) ?_
  rw [Lexicon.takeLiteral_eq_none_iff] at hq ⊢
  exact hq.imp_right fun hm hc => hm (hp.subset hc)

end Step

/-- A step takes the same piece when a newline follows somewhere behind it. -/
theorem Step.cut (hc : lexicon.blockClose ≠ "") {text a b : List Char} {piece : Piece}
    (h : Step lexicon text piece (a ++ b)) (more : List Char) :
    Step lexicon (piece.text ++ (a ++ '\n' :: more)) piece (a ++ '\n' :: more) := by
  generalize hm : a ++ b = middle at h
  cases h with
  | newline rest => exact .newline _
  | lineComment hn ht hl =>
    refine .lineComment hn ?_ hl
    cases a with
    | nil => exact .inr ⟨more, rfl⟩
    | cons x a =>
      rcases ht with rfl | ⟨rest, rfl⟩
      · simp at hm
      · obtain ⟨rfl, _⟩ := List.cons.inj hm
        exact .inr ⟨a ++ '\n' :: more, rfl⟩
  | block hn ht hl ho hb =>
    subst hm
    exact block_cut hn ht hl hc ho hb more
  | literal hn ht hl ho hq => exact literal_cut hn ht hl ho hq hm more
  | code hn ht hl ho hq => exact code_cut hn ht hl ho hq hm.symm more

namespace Reads

theorem cut (hc : lexicon.blockClose ≠ "") {t a b : List Char} {pieces : List Piece}
    (h : Reads lexicon t pieces (a ++ b)) (more : List Char) :
    Reads lexicon (pieces.flatMap Piece.text ++ (a ++ '\n' :: more)) pieces
      (a ++ '\n' :: more) := by
  generalize hm : a ++ b = left at h
  induction h with
  | done text => exact .done _
  | @step text middle left piece pieces first later ih =>
    subst hm
    rw [← later.text, ← List.append_assoc] at first
    have hfirst := first.cut hc more
    rw [List.append_assoc] at hfirst
    rw [List.flatMap_cons, List.append_assoc]
    exact .step hfirst (ih rfl)

/-- A reading stopped between two of its pieces. -/
theorem split {t left : List Char} {a b : List Piece} (h : Reads lexicon t (a ++ b) left) :
    ∃ middle, Reads lexicon t a middle ∧ Reads lexicon middle b left := by
  induction a generalizing t with
  | nil => exact ⟨t, .done t, h⟩
  | cons piece a ih =>
    cases h with
    | step first later =>
      obtain ⟨middle, ha, hb⟩ := ih later
      exact ⟨middle, .step first ha, hb⟩

end Reads

/-- The pieces of a whole text: those of a reading, and the comment that it leaves open. -/
theorem exists_reads_pieces (lexicon : Lexicon) (text : List Char) :
    ∃ pieces left, Reads lexicon text pieces left ∧
      ((left = [] ∧ (scanText lexicon text).pieces = pieces) ∨
        (left ≠ [] ∧ (scanText lexicon text).pieces = pieces ++ [.marked .blockComment left])) := by
  obtain ⟨pieces, left, hr, hl⟩ := exists_reads lexicon text
  refine ⟨pieces, left, hr, ?_⟩
  rw [hr.scanText]
  rcases hl with rfl | hl
  · exact .inl ⟨rfl, by simp [scanText, LineScan.behind]⟩
  · exact .inr ⟨hl.ne_nil, by rw [hl.scanText]; rfl⟩

/-- A text can be read up to the end of a stretch that overlaps no segment. -/
theorem exists_reads_of_clear {a b : List Char} {start : Nat} (hs : start < byteLength a)
    (h : ∀ s ∈ segmentsFrom 0 (scanText lexicon (a ++ b)).pieces,
      ¬ (start < s.span.stop ∧ s.span.start < byteLength a)) :
    ∃ pieces, Reads lexicon (a ++ b) pieces b ∧ pieces.flatMap Piece.text = a := by
  obtain ⟨pieces, left, hr, hl⟩ := exists_reads_pieces lexicon (a ++ b)
  have ht : (scanText lexicon (a ++ b)).pieces.flatMap Piece.text = a ++ b := by
    rcases hl with ⟨rfl, hp⟩ | ⟨_, hp⟩
    · rw [hp, ← hr.text, List.append_nil]
    · rw [hp, ← hr.text]
      simp [Piece.text]
  obtain ⟨before, after, hp, ha, hb⟩ := @exists_split_pieces _ a b 0 ht fun s hm hi =>
    h s hm (by omega)
  -- the reading itself is cut there, as the comment that it leaves open is not in the stretch
  have hsplit : ∃ later, pieces = before ++ later := by
    rcases hl with ⟨_, hp'⟩ | ⟨hne, hp'⟩
    · exact ⟨after, hp'.symm.trans hp⟩
    · rcases List.eq_nil_or_concat after with rfl | ⟨init, last, rfl⟩
      · exfalso
        rw [hp', List.append_nil] at hp
        refine h ⟨.blockComment, byteLength (pieces.flatMap Piece.text), byteLength a⟩ ?_ ?_
        · rw [hp']
          refine mem_segmentsFrom.mpr ⟨pieces, left, [], rfl, by simp, ?_⟩
          rw [← ha, ← hp]
          simp [Piece.text]
        · refine ⟨hs, ?_⟩
          have := length_le_byteLength left
          have := List.length_pos_iff.mpr hne
          rw [← ha, ← hp]
          simp [Piece.text]
          omega
      · rw [hp', List.concat_eq_append, ← List.append_assoc] at hp
        exact ⟨init, (List.append_inj' hp rfl).1⟩
  obtain ⟨later, rfl⟩ := hsplit
  obtain ⟨middle, hbefore, _⟩ := hr.split
  have hm : middle = b := by
    have htext := hbefore.text
    rw [ha] at htext
    exact List.append_cancel_left htext
  exact ⟨before, hm ▸ hbefore, ha⟩

end Graft.Scan
