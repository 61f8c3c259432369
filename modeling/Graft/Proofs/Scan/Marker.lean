import Graft.Scan.WholeText
import Graft.Proofs.Text.Delimiter

/-! # Markers and quotes in a longer text

What opens at the start of a text still opens when more text follows, and a comment or
literal that is closed stays the same whatever comes behind it.  A block comment that is not
closed on its line is looked for a closing marker behind the newline.
-/
namespace Graft.Scan
open Graft.Text

theorem cutLine_cons {c : Char} (hc : c ≠ '\n') (rest : List Char) :
    cutLine (c :: rest) = (c :: (cutLine rest).1, (cutLine rest).2) := by
  simp [cutLine, hc]

theorem prefix_cutLine (text : List Char) : (cutLine text).1 <+: text :=
  List.takeWhile_prefix _

/-- A text ends here or a new line starts. -/
def LineEnd (text : List Char) : Prop :=
  text = [] ∨ ∃ rest, text = '\n' :: rest

theorem cutLine_append_of_lineEnd {line tail : List Char} (hl : '\n' ∉ line)
    (ht : LineEnd tail) : cutLine (line ++ tail) = (line, tail) := by
  induction line with
  | nil => rcases ht with rfl | ⟨rest, rfl⟩ <;> simp [cutLine]
  | cons c line ih =>
    obtain ⟨hc, hl⟩ := by simpa using hl
    rw [List.cons_append, cutLine_cons (Ne.symm hc), ih hl]

theorem notMem_cutLine (text : List Char) : '\n' ∉ (cutLine text).1 := by
  intro h
  have hp := List.all_eq_true.mp List.all_takeWhile '\n' h
  simp at hp

theorem lineEnd_cutLine (text : List Char) : LineEnd (cutLine text).2 := by
  induction text with
  | nil => exact .inl rfl
  | cons c rest ih =>
    by_cases hc : c = '\n'
    · subst hc
      exact .inr ⟨rest, by simp [cutLine]⟩
    · rwa [cutLine_cons hc]

namespace Lexicon
variable {lexicon : Lexicon}

theorem opensLineComment_mono {a b : List Char} (h : a <+: b)
    (ha : lexicon.opensLineComment a = true) : lexicon.opensLineComment b = true := by
  simp only [opensLineComment, List.isPrefixOf_iff_prefix] at ha ⊢
  exact ha.trans h

theorem opensBlock_mono {a b : List Char} (h : a <+: b)
    (ha : lexicon.opensBlock a = true) : lexicon.opensBlock b = true := by
  simp only [opensBlock, Bool.and_eq_true, List.isPrefixOf_iff_prefix] at ha ⊢
  exact ⟨ha.1, ha.2.trans h⟩

theorem opensLineComment_eq_false_anti {a b : List Char} (h : a <+: b)
    (hb : lexicon.opensLineComment b = false) : lexicon.opensLineComment a = false := by
  cases ha : lexicon.opensLineComment a with
  | false => rfl
  | true => simp [opensLineComment_mono h ha] at hb

theorem opensBlock_eq_false_anti {a b : List Char} (h : a <+: b)
    (hb : lexicon.opensBlock b = false) : lexicon.opensBlock a = false := by
  cases ha : lexicon.opensBlock a with
  | false => rfl
  | true => simp [opensBlock_mono h ha] at hb

theorem prefix_of_opensBlock {text : List Char} (h : lexicon.opensBlock text = true) :
    lexicon.blockOpen.toList <+: text := by
  simp only [opensBlock, Bool.and_eq_true, List.isPrefixOf_iff_prefix] at h
  exact h.2

theorem opensBlock_congr {a b : List Char} (ha : lexicon.opensBlock a = true)
    (hb : lexicon.blockOpen.toList <+: b) : lexicon.opensBlock b = true := by
  simp only [opensBlock, Bool.and_eq_true, List.isPrefixOf_iff_prefix] at ha ⊢
  exact ⟨ha.1, hb⟩

theorem prefix_of_takeBlock {text block left : List Char}
    (h : lexicon.takeBlock text = some (block, left)) : lexicon.blockOpen.toList <+: block := by
  obtain ⟨⟨body, rest⟩, _, he⟩ := Option.map_eq_some_iff.mp h
  obtain ⟨rfl, rfl⟩ := by simpa using he
  exact List.prefix_append _ _

theorem toList_ne_nil {marker : String} (h : marker ≠ "") : marker.toList ≠ [] :=
  fun hn => h (String.toList_eq_nil_iff.mp hn)

/-- A block comment that is closed is the same whatever stands behind it. -/
theorem takeBlock_taken (hc : lexicon.blockClose ≠ "") {text block left : List Char}
    (h : lexicon.takeBlock text = some (block, left)) (more : List Char) :
    lexicon.takeBlock (block ++ more) = some (block, more) := by
  obtain ⟨⟨body, rest⟩, ht, he⟩ := Option.map_eq_some_iff.mp h
  obtain ⟨rfl, rfl⟩ := by simpa using he
  rw [takeBlock, List.append_assoc, List.drop_left, takeThrough_taken (toList_ne_nil hc) ht]
  rfl

/-- A block comment left open by its line goes on behind the newline. -/
theorem takeBlock_append_newline (hc : lexicon.blockClose ≠ "")
    (hn : '\n' ∉ lexicon.blockClose.toList) {text : List Char}
    (ho : lexicon.opensBlock text = true) (h : lexicon.takeBlock text = none)
    (more : List Char) :
    lexicon.takeBlock (text ++ '\n' :: more) =
      (takeThrough lexicon.blockClose.toList more).map
        fun (taken, left) => (text ++ '\n' :: taken, left) := by
  obtain ⟨body, rfl⟩ := prefix_of_opensBlock ho
  rw [takeBlock, List.drop_left, Option.map_eq_none_iff] at h
  rw [takeBlock, List.append_assoc, List.drop_left,
    takeThrough_append_newline (toList_ne_nil hc) hn h, Option.map_map]
  congr 1
  funext found
  simp

theorem takeLiteral_eq_none_iff {c : Char} {text : List Char} :
    lexicon.takeLiteral c text = none ↔ lexicon.literalKind? c = none ∨ c ∉ text := by
  unfold takeLiteral
  split
  · next h => simp [h]
  · next kind h => simp [h, takeThrough_singleton_eq_none_iff]

/-- A literal that is closed is the same whatever stands behind it. -/
theorem takeLiteral_taken {c : Char} {text literal left : List Char} {kind : Kind}
    (h : lexicon.takeLiteral c text = some (kind, literal, left)) :
    ∃ body, literal = c :: body ∧ body ++ left = text ∧
      ∀ more, lexicon.takeLiteral c (body ++ more) = some (kind, c :: body, more) := by
  unfold takeLiteral at h ⊢
  split at h
  · cases h
  · next k hk =>
    obtain ⟨⟨body, rest⟩, ht, he⟩ := Option.map_eq_some_iff.mp h
    obtain ⟨rfl, rfl, rfl⟩ := by simpa using he
    refine ⟨body, rfl, takeThrough_append ht, fun more => ?_⟩
    rw [takeThrough_taken (List.cons_ne_nil _ _) ht]
    rfl

theorem isComment_of_takeLiteral {c : Char} {text literal left : List Char} {kind : Kind}
    (h : lexicon.takeLiteral c text = some (kind, literal, left)) : kind.isComment = false := by
  unfold takeLiteral at h
  split at h
  · cases h
  · next k hk =>
    obtain ⟨⟨_, _⟩, _, he⟩ := Option.map_eq_some_iff.mp h
    obtain ⟨rfl, _⟩ := by simpa using he
    simpa [Kind.isLiteral_eq_not_isComment] using isLiteral_of_literalKind? hk

end Lexicon
end Graft.Scan
