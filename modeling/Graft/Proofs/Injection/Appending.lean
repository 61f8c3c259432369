import Graft.Injection
import Graft.Proofs.Scan.Insertion

/-! # Appending statements

A statement on a line of its own stays visible to the next search when it is appended to a
script that ends in code, and what was visible before stays so.  Appended to a script that
ends inside a block comment it is invisible: the comment goes on behind the newline with which
the statement starts, so the next run appends it again (`exists_missing_ensureAll`).
-/
namespace Graft
open Scan Text

/-- A statement on a line of its own, written outside comments whatever follows it. -/
structure OwnLine (lexicon : Lexicon) (statement : String) : Prop where
  lead : ∃ lead, statement.toList = '\n' :: (lead ++ (trim statement).toList) ∧ ∀ c ∈ lead, c = '\n'
  ne_empty : trim statement ≠ ""
  notMem : '\n' ∉ (trim statement).toList
  reads : ∃ pieces, ReadsAs lexicon statement.toList pieces ∧
    ∀ piece ∈ pieces, piece.isComment = false

namespace OwnLine
variable {lexicon : Lexicon} {statement : String}

theorem head? (h : OwnLine lexicon statement) : statement.toList.head? = some '\n' := by
  obtain ⟨lead, hl, _⟩ := h.lead
  rw [hl]
  rfl

theorem trim_infix (h : OwnLine lexicon statement) :
    (trim statement).toList <:+: statement.toList := by
  obtain ⟨lead, hl, _⟩ := h.lead
  exact ⟨'\n' :: lead, [], by simp [hl]⟩

end OwnLine

namespace Config

/-- The text of a statement stands in a script outside comments. -/
def Stands (c : Config) (content statement : String) : Prop :=
  ((c.classify content).findUncommented? (trim statement) content).isSome = true

section
variable {c : Config} {content statement : String}

theorem ensure?_of_stands (h : c.Stands content statement) :
    c.ensure? content statement = none := by
  unfold Stands at h
  simp [ensure?, h]

theorem ensure?_of_not_stands (hn : trim statement ≠ "") (h : ¬ c.Stands content statement) :
    c.ensure? content statement = some (content ++ statement) := by
  unfold Stands at h
  simp [ensure?, h, hn]

theorem ensure?_eq_none_iff (hn : trim statement ≠ "") :
    c.ensure? content statement = none ↔ c.Stands content statement := by
  by_cases h : c.Stands content statement
  · simp [h, ensure?_of_stands h]
  · simp [h, ensure?_of_not_stands hn h]

end

section
variable {c : Config} (hc : c.lexicon.blockClose ≠ "") (hcn : '\n' ∉ c.lexicon.blockClose.toList)
  {content statement : String}
include hc hcn

/-- A line that is appended hides nothing. -/
theorem Stands.append {line : String} (h : c.Stands content statement)
    (hl : OwnLine c.lexicon line) : c.Stands (content ++ line) statement :=
  isSome_findUncommented?_append hc hcn hl.head? h

/-- Behind code an appended statement can be seen, and code stands behind it. -/
theorem stands_append_self (he : (c.classify content).endState = .code)
    (hs : OwnLine c.lexicon statement) :
    c.Stands (content ++ statement) statement ∧
      (c.classify (content ++ statement)).endState = .code := by
  obtain ⟨own, hown, hclean⟩ := hs.reads
  rcases endState_cases hc hcn content with ⟨_, pieces, hr⟩ | ⟨ho, _⟩
  · have hb : ReadsBetween c.lexicon content statement "" pieces own :=
      .ofNewline hc (by simpa using hr) hs.head? hown
    have hstands := isSome_findUncommented?_insert hc hcn hb hclean hs.ne_empty hs.trim_infix
    have hafter := congrArg Classification.endState (of_insert hc hcn hb)
    rw [String.append_empty] at hstands hafter
    rw [String.append_empty] at hafter
    exact ⟨hstands, hafter.trans he⟩
  · rw [classify, ho] at he
    cases he

end

/-! ## Several statements in turn -/

section
variable {c : Config} {content statement : String} {rest : List String}

theorem ensureAll_cons_of_stands (h : c.Stands content statement) :
    c.ensureAll content (statement :: rest) = c.ensureAll content rest := by
  rw [ensureAll, List.foldl_cons, ensure?_of_stands h]
  rfl

theorem ensureAll_cons_of_not_stands (hn : trim statement ≠ "") (h : ¬ c.Stands content statement) :
    c.ensureAll content (statement :: rest) = c.ensureAll (content ++ statement) rest := by
  rw [ensureAll, List.foldl_cons, ensure?_of_not_stands hn h]
  rfl

end

section
variable {c : Config} {statements : List String}
  (hs : ∀ statement ∈ statements, OwnLine c.lexicon statement)
include hs

/-- What holds of a script and stays when a line is appended holds after all statements. -/
theorem ensureAll_induction {p : String → Prop}
    (step : ∀ content statement, OwnLine c.lexicon statement → p content → p (content ++ statement))
    {content : String} (h : p content) : p (c.ensureAll content statements) := by
  induction statements generalizing content with
  | nil => exact h
  | cons statement rest ih =>
    obtain ⟨hfirst, hrest⟩ := List.forall_mem_cons.mp hs
    by_cases hm : c.Stands content statement
    · rw [ensureAll_cons_of_stands hm]
      exact ih hrest h
    · rw [ensureAll_cons_of_not_stands hfirst.ne_empty hm]
      exact ih hrest (step content statement hfirst h)

/-- What is appended is made of the statements. -/
theorem exists_ensureAll_eq_append (content : String) :
    ∃ added, added ⊆ statements ∧
      (c.ensureAll content statements).toList = content.toList ++ added.flatMap String.toList := by
  induction statements generalizing content with
  | nil => exact ⟨[], by simp, by simp [ensureAll]⟩
  | cons statement rest ih =>
    obtain ⟨hfirst, hrest⟩ := List.forall_mem_cons.mp hs
    by_cases hm : c.Stands content statement
    · obtain ⟨added, hsub, ha⟩ := ih hrest content
      rw [ensureAll_cons_of_stands hm, ha]
      exact ⟨added, List.Subset.trans hsub (List.subset_cons_self _ _), rfl⟩
    · obtain ⟨added, hsub, ha⟩ := ih hrest (content ++ statement)
      refine ⟨statement :: added, List.cons_subset_cons _ hsub, ?_⟩
      rw [ensureAll_cons_of_not_stands hfirst.ne_empty hm, ha]
      simp

/-- A script stays the same exactly when every statement stands in it. -/
theorem ensureAll_eq_self_iff {content : String} :
    c.ensureAll content statements = content ↔
      ∀ statement ∈ statements, c.Stands content statement := by
  induction statements with
  | nil => simp [ensureAll]
  | cons statement rest ih =>
    obtain ⟨hfirst, hrest⟩ := List.forall_mem_cons.mp hs
    rw [List.forall_mem_cons, ← ih hrest]
    by_cases hm : c.Stands content statement
    · simp [ensureAll_cons_of_stands hm, hm]
    · -- the script has grown by a statement at least
      obtain ⟨added, _, ha⟩ := exists_ensureAll_eq_append hrest (content ++ statement)
      simp only [hm, false_and, iff_false]
      rw [ensureAll_cons_of_not_stands hfirst.ne_empty hm, ← String.toList_inj, ha]
      obtain ⟨lead, hl, _⟩ := hfirst.lead
      simp [hl]

variable (hc : c.lexicon.blockClose ≠ "") (hcn : '\n' ∉ c.lexicon.blockClose.toList)
include hc hcn

theorem Stands.ensureAll {content statement : String} (h : c.Stands content statement) :
    c.Stands (c.ensureAll content statements) statement :=
  ensureAll_induction hs (p := fun content => c.Stands content statement)
    (fun _ _ hl hp => hp.append hc hcn hl) h

/-- Appended to code, every statement stands in the result. -/
theorem stands_ensureAll {content : String} (he : (c.classify content).endState = .code) :
    ∀ statement ∈ statements, c.Stands (c.ensureAll content statements) statement := by
  induction statements generalizing content with
  | nil => simp
  | cons first rest ih =>
    obtain ⟨hfirst, hrest⟩ := List.forall_mem_cons.mp hs
    by_cases hm : c.Stands content first
    · rw [ensureAll_cons_of_stands hm, List.forall_mem_cons]
      exact ⟨hm.ensureAll hrest hc hcn, ih hrest he⟩
    · obtain ⟨hself, hcode⟩ := stands_append_self hc hcn he hfirst
      rw [ensureAll_cons_of_not_stands hfirst.ne_empty hm, List.forall_mem_cons]
      exact ⟨hself.ensureAll hrest hc hcn, ih hrest hcode⟩

end

/-! ## An open comment at the end -/

theorem infix_of_shifted {needle z after more : List Char} (hn : '\n' ∉ needle) (hz : z ≠ [])
    (hm : LineEnd more) (h : z ++ (needle ++ after) = needle ++ more) : needle <:+: more := by
  rcases List.append_eq_append_iff.mp h with ⟨w, rfl, hw⟩ | ⟨w, rfl, hw⟩
  · -- the needle would lie within its own end
    have hp := (prefix_of_lineEnd hn hm ⟨after, hw⟩).length_le
    have := List.length_pos_iff.mpr hz
    simp only [List.length_append] at hp
    omega
  · exact ⟨w, after, by simp [hw]⟩

theorem lineEnd_flatMap {lexicon : Lexicon} {added : List String}
    (h : ∀ line ∈ added, OwnLine lexicon line) : LineEnd (added.flatMap String.toList) := by
  cases added with
  | nil => exact .inl rfl
  | cons line rest =>
    obtain ⟨lead, hl, _⟩ := (h line List.mem_cons_self).lead
    exact .inr ⟨_, by rw [List.flatMap_cons, hl, List.cons_append]⟩

/-- What stands on one line in several statements stands in one of them. -/
theorem exists_infix_of_flatMap {lexicon : Lexicon} {needle : List Char} (hn : '\n' ∉ needle)
    (hne : needle ≠ []) {added : List String} (h : ∀ line ∈ added, OwnLine lexicon line)
    (hi : needle <:+: added.flatMap String.toList) : ∃ line ∈ added, needle <:+: line.toList := by
  induction added with
  | nil => simp [hne] at hi
  | cons line rest ih =>
    obtain ⟨_, hrest⟩ := List.forall_mem_cons.mp h
    have hsplit : needle <:+: line.toList ∨ needle <:+: rest.flatMap String.toList := by
      rw [List.flatMap_cons] at hi
      rcases lineEnd_flatMap hrest with he | ⟨more, he⟩
      · rw [he, List.append_nil] at hi
        exact .inl hi
      · rw [he] at hi ⊢
        exact (infix_append_cons hn hi).imp_right List.infix_cons
    rcases hsplit with hl | hr
    · exact ⟨line, List.mem_cons_self, hl⟩
    · obtain ⟨other, hm, ho⟩ := ih hrest hr
      exact ⟨other, List.mem_cons_of_mem line hm, ho⟩

section
variable {c : Config} (hc : c.lexicon.blockClose ≠ "") (hcn : '\n' ∉ c.lexicon.blockClose.toList)
include hc hcn

/-- A statement that is appended behind an open comment is hidden by it. -/
theorem not_stands_append_of_open {content statement more : String}
    (he : (c.classify content).endState ≠ .code) (hs : OwnLine c.lexicon statement)
    (hn : ¬ c.Stands content statement) (hm : LineEnd more.toList)
    (hi : ¬ (trim statement).toList <:+: more.toList) :
    ¬ c.Stands (content ++ (statement ++ more)) statement := by
  intro h
  obtain ⟨lead, hl, hlead⟩ := hs.lead
  obtain ⟨hne, start, hstart, hclear⟩ := (Classification.isSome_find?_iff (placed_of _ _)).mp h
  have hpos := Nat.pos_of_ne_zero (mt byteLength_eq_zero_iff.mp hne)
  have hnew : (statement ++ more).toList =
      '\n' :: (lead ++ ((trim statement).toList ++ more.toList)) := by
    simp [hl]
  rw [String.toList_append] at hstart
  by_cases hle : start + byteLength (trim statement).toList ≤ content.utf8ByteSize
  · refine hn ((Classification.isSome_find?_iff (placed_of _ _)).mpr ⟨hne, start, ?_, ?_⟩)
    · exact hstart.left (by simpa using hle)
    · exact (clear_append_newline hc hcn (by rw [hnew]; rfl) (by omega) hle).mp hclear
  · rcases endState_cases hc hcn content with ⟨hcode, _⟩ | ⟨_, pieces, left, hr, hu⟩
    · exact he hcode
    obtain ⟨before, after, ht, rfl⟩ := hstart
    have hend : byteLength before + byteLength (trim statement).toList ≤
        (content ++ (statement ++ more)).utf8ByteSize := by
      rw [← byteLength_toList (content ++ _), String.toList_append, ht]
      simp
    have hlt := lt_start_of_unclosed hc hcn hr hu hnew hlead hclear (by omega) (by omega) hend
    -- so the statement's text lies behind its own place
    rw [hnew, ← List.cons_append, ← List.append_assoc] at ht
    rcases List.append_eq_append_iff.mp ht with ⟨z, rfl, hz⟩ | ⟨z, hz, _⟩
    · refine hi (infix_of_shifted hs.notMem ?_ hm hz.symm)
      rintro rfl
      simp at hlt
    · have hb := congrArg byteLength hz
      simp only [byteLength_append, byteLength_toList] at hb
      omega

/-- Behind an open comment, a statement that is missing is still missing after it has been
appended.  No statement may write the text of an earlier one. -/
theorem exists_missing_ensureAll {statements : List String} {content : String}
    (hs : ∀ statement ∈ statements, OwnLine c.lexicon statement)
    (hi : statements.Pairwise fun s t => ¬ (trim s).toList <:+: t.toList)
    (he : (c.classify content).endState ≠ .code)
    (hm : ∃ statement ∈ statements, ¬ c.Stands content statement) :
    ∃ statement ∈ statements, ¬ c.Stands (c.ensureAll content statements) statement := by
  induction statements with
  | nil => simp at hm
  | cons first rest ih =>
    obtain ⟨hfirst, hrest⟩ := List.forall_mem_cons.mp hs
    obtain ⟨hfi, hri⟩ := List.pairwise_cons.mp hi
    by_cases hstands : c.Stands content first
    · have hlater : ∃ statement ∈ rest, ¬ c.Stands content statement := by
        obtain ⟨statement, hmem, hmissing⟩ := hm
        rcases List.mem_cons.mp hmem with rfl | hmem
        · exact absurd hstands hmissing
        · exact ⟨statement, hmem, hmissing⟩
      obtain ⟨statement, hmem, hmissing⟩ := ih hrest hri hlater
      rw [ensureAll_cons_of_stands hstands]
      exact ⟨statement, List.mem_cons_of_mem first hmem, hmissing⟩
    · obtain ⟨added, hsub, ha⟩ := exists_ensureAll_eq_append hrest (content ++ first)
      have hadded := fun line hl => hrest line (hsub hl)
      have hfinal : c.ensureAll content (first :: rest) =
          content ++ (first ++ .ofList (added.flatMap String.toList)) := by
        rw [ensureAll_cons_of_not_stands hfirst.ne_empty hstands, ← String.toList_inj, ha]
        simp
      refine ⟨first, List.mem_cons_self, ?_⟩
      rw [hfinal]
      apply not_stands_append_of_open hc hcn he hfirst hstands
      · simpa using lineEnd_flatMap hadded
      · intro hinfix
        obtain ⟨line, hl, hin⟩ := exists_infix_of_flatMap hfirst.notMem
          (Lexicon.toList_ne_nil hfirst.ne_empty) hadded (by simpa using hinfix)
        exact hfi line (hsub hl) hin

/-- A second round of appending changes nothing exactly when the script ended in code, or had
every statement already. -/
theorem ensureAll_ensureAll_eq_iff {statements : List String} {content : String}
    (hs : ∀ statement ∈ statements, OwnLine c.lexicon statement)
    (hi : statements.Pairwise fun s t => ¬ (trim s).toList <:+: t.toList) :
    c.ensureAll (c.ensureAll content statements) statements = c.ensureAll content statements ↔
      (c.classify content).endState = .code ∨
        ∀ statement ∈ statements, c.Stands content statement := by
  rw [ensureAll_eq_self_iff hs]
  constructor
  · intro hall
    by_cases he : (c.classify content).endState = .code
    · exact .inl he
    · refine .inr fun statement hmem => ?_
      by_cases hm : c.Stands content statement
      · exact hm
      · obtain ⟨other, hother, hmissing⟩ :=
          exists_missing_ensureAll hc hcn hs hi he ⟨statement, hmem, hm⟩
        exact absurd (hall other hother) hmissing
  · rintro (he | hall)
    · exact stands_ensureAll hs hc hcn he
    · rw [(ensureAll_eq_self_iff hs).mpr hall]
      exact hall

end
end Config
end Graft
