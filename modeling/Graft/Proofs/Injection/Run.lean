import Graft.Proofs.Injection.Appending
import Graft.Proofs.Injection.Declaration
import Graft.Proofs.Text.Blank
import Mathlib.Data.List.Basic

/-! # Running twice

The built-in statements are lines of their own, and no task statement writes an apply
statement.  So a second run on a script changes nothing exactly when the script ends in code
or needs no statement: at the end of a block comment that nothing closes, every run appends
again what the comment hides.
-/
namespace Graft
open Scan Text

theorem OwnLine.ofBody {lexicon : Lexicon} {statement : String} {pieces : List Piece}
    (lead body : List Char) (hs : statement.toList = '\n' :: (lead ++ body))
    (hlead : ∀ c ∈ lead, c = '\n') (hh : ∃ c ∈ body.head?, isBlank c = false)
    (ht : ∃ c ∈ body.getLast?, isBlank c = false) (hn : '\n' ∉ body)
    (hr : ReadsAs lexicon statement.toList pieces)
    (hc : ∀ piece ∈ pieces, piece.isComment = false) :
    OwnLine lexicon statement ∧ (trim statement).toList = body := by
  obtain ⟨first, hfirst, hfb⟩ := hh
  obtain ⟨last, hlast, hlb⟩ := ht
  have htrim : (trim statement).toList = body := by
    rw [trim, String.toList_ofList, hs, ← List.cons_append]
    apply trimBlanks_append
    · intro c hm
      rcases List.mem_cons.mp hm with rfl | hm
      · decide
      · rw [hlead c hm]
        decide
    · intro c hm
      rwa [Option.mem_unique hm hfirst]
    · intro c hm
      rwa [Option.mem_unique hm hlast]
  refine ⟨⟨⟨lead, by rw [htrim, hs], hlead⟩, ?_, by rwa [htrim], pieces, hr, hc⟩, htrim⟩
  intro he
  rw [he] at htrim
  subst htrim
  simp at hfirst

namespace Config
variable {c : Config}

theorem BuiltIn.ownLine_applyStatement (hb : c.BuiltIn) (d : Dialect) {script : String}
    (hq : Quotable script) :
    OwnLine c.lexicon (c.applyStatement d script) ∧
      (trim (c.applyStatement d script)).toList =
        (applyLead d).toList.tail ++ (quoted script.toList ++ (applyTail d).toList) := by
  have htext : (c.applyStatement d script).toList =
      (applyLead d).toList ++ quoted script.toList ++ (applyTail d).toList := by
    simp [hb.applyStatement]
  have hplain : (applyLead d).toList.all isPlain = true ∧
      (applyTail d).toList.all isPlain = true := by
    cases d <;> decide +kernel
  have hreads := readsAs_quoting hplain.1 hplain.2 hq.1 hq.2
  rw [← htext, ← hb.lexicon] at hreads
  refine OwnLine.ofBody [] _ ?_ (by simp) ⟨'a', ?_, by decide⟩ ?_ ?_ hreads
    fun _ => isComment_quotingPieces
  · rw [htext]
    cases d <;> simp [applyLead]
  · cases d <;> simp [applyLead]
  · cases d with
    | groovy => exact ⟨'"', by simp [applyTail, quoted, List.getLast?_cons], by decide⟩
    | kotlin => exact ⟨')', by simp [applyTail, quoted, List.getLast?_cons], by decide⟩
  · cases d <;> simp [applyLead, applyTail, quoted, hq.2]

theorem BuiltIn.ownLine_taskStatement (hb : c.BuiltIn) (d : Dialect) {name className : String}
    (hn : IsWord name) (hc : IsWord className) :
    OwnLine c.lexicon (c.taskStatement d name className) := by
  have hline : '\n' ∉ name.toList ∧ '\n' ∉ className.toList :=
    ⟨hn.notMem (by decide), hc.notMem (by decide)⟩
  cases d with
  | groovy =>
    have htext := congrArg String.toList (hb.taskStatement_groovy hn className)
    have hplain : (c.taskStatement .groovy name className).toList.all isPlain = true := by
      simp only [htext, String.toList_append, List.all_append, Bool.and_eq_true]
      exact ⟨⟨⟨⟨by decide +kernel, hn.plain⟩, by decide +kernel⟩, hc.plain⟩, by decide +kernel⟩
    have hreads := readsAs_plain hplain
    rw [← hb.lexicon] at hreads
    refine (OwnLine.ofBody ['\n'] ("task ".toList ++ (name.toList ++ ("(type: ".toList ++
      (className.toList ++ [')'])))) ?_ (by simp) ⟨'t', by simp, by decide⟩
      ⟨')', by simp [List.getLast?_cons], by decide⟩ ?_ hreads ?_).1
    · simp [htext]
    · simp [hline]
    · simp [Piece.isComment]
  | kotlin =>
    have htext : (c.taskStatement .kotlin name className).toList =
        "\n\ntasks.register<".toList ++ className.toList ++ ">(".toList ++ quoted name.toList ++
          ")".toList := by
      simp [hb.taskStatement_kotlin hn className]
    have hplain : ("\n\ntasks.register<".toList ++ className.toList ++ ">(".toList).all isPlain =
        true := by
      simp only [List.all_append, Bool.and_eq_true]
      exact ⟨⟨by decide +kernel, hc.plain⟩, by decide +kernel⟩
    have hquote : '"' ∉ name.toList := hn.notMem (by decide)
    have hreads := readsAs_quoting hplain (by decide +kernel : ")".toList.all isPlain = true)
      hquote hline.1
    rw [← htext, ← hb.lexicon] at hreads
    refine (OwnLine.ofBody ['\n'] ("tasks.register<".toList ++ (className.toList ++ (">(".toList ++
      (quoted name.toList ++ [')'])))) ?_ (by simp) ⟨'t', by simp, by decide⟩
      ⟨')', by simp [List.getLast?_cons, quoted], by decide⟩ ?_ hreads
      fun _ => isComment_quotingPieces).1
    · simp [htext]
    · simp [hline, quoted]

/-- A task statement does not write an apply statement. -/
theorem BuiltIn.not_infix_taskStatement (hb : c.BuiltIn) (d : Dialect) {script name : String}
    {className : String} (hq : Quotable script) (hn : IsWord name) (hc : IsWord className) :
    ¬ (trim (c.applyStatement d script)).toList <:+: (c.taskStatement d name className).toList := by
  rw [(hb.ownLine_applyStatement d hq).2]
  intro hi
  cases d with
  | groovy =>
    -- only the apply statement has quotes
    have hm : '"' ∈ (c.taskStatement .groovy name className).toList :=
      hi.subset (by simp [quoted])
    have hquote : '"' ∉ name.toList ∧ '"' ∉ className.toList :=
      ⟨hn.notMem (by decide), hc.notMem (by decide)⟩
    simp [hb.taskStatement_groovy hn, hquote] at hm
  | kotlin =>
    -- the one bracket that a task statement opens does not follow a letter
    have hparen : '(' ∉ name.toList ∧ '(' ∉ className.toList :=
      ⟨hn.notMem (by decide), hc.notMem (by decide)⟩
    obtain ⟨before, after, ht⟩ := hi
    have heq : (before ++ "apply".toList) ++ '(' :: (quoted script.toList ++ ')' :: after) =
        ("\n\ntasks.register<".toList ++ className.toList ++ ['>']) ++
          '(' :: (quoted name.toList ++ [')']) := by
      simpa [hb.taskStatement_kotlin hn, applyLead, applyTail] using ht
    have hlead := ((List.append_cons_inj_of_notMem (by simp [hparen])
      (by simp [hparen, quoted])).mp heq.symm).1
    have hlast := congrArg List.getLast? hlead
    simp [List.getLast?_cons] at hlast

section
variable (hb : c.BuiltIn) (ha : c.append.Quotable) (d : Dialect)
include hb ha

theorem ownLine_statements : ∀ statement ∈ c.statements d, OwnLine c.lexicon statement := by
  intro statement hm
  simp only [statements, List.mem_append, Option.mem_toList,
    Option.map_eq_some_iff] at hm
  rcases hm with ⟨script, hs, rfl⟩ | ⟨task, ht, rfl⟩
  · exact (hb.ownLine_applyStatement d (ha.script script hs)).1
  · exact hb.ownLine_taskStatement d (ha.name task ht) (ha.className task ht)

theorem pairwise_statements :
    (c.statements d).Pairwise fun s t => ¬ (trim s).toList <:+: t.toList := by
  rw [statements]
  cases hs : c.append.script with
  | none => cases c.append.task <;> simp
  | some script =>
    cases ht : c.append.task with
    | none => simp
    | some task =>
      have hi := hb.not_infix_taskStatement d (ha.script script hs) (ha.name task ht)
        (ha.className task ht)
      simpa using hi

variable (hq : c.plugin.Quotable)
include hq

theorem inject_run (content : String) :
    c.inject (c.run d content) = ⟨c.run d content, .alreadyPresent⟩ := by
  apply inject_of_declares
  apply ensureAll_induction (ownLine_statements hb ha d) (p := fun text => c.declares text = true)
  · intro text line hl hd
    rw [declares, classify, hb.lexicon] at hd ⊢
    exact isSome_findUncommented?_append closes_builtIn.1 closes_builtIn.2 hl.head? hd
  · exact declares_inject hb hq content

theorem run_run_eq_iff (content : String) : c.run d (c.run d content) = c.run d content ↔
    (c.classify content).endState = .code ∨
      ∀ statement ∈ c.statements d, c.ensure? (c.inject content).content statement = none := by
  have hs := ownLine_statements hb ha d
  have hstands : (∀ statement ∈ c.statements d,
        c.ensure? (c.inject content).content statement = none) ↔
      ∀ statement ∈ c.statements d, c.Stands (c.inject content).content statement :=
    forall₂_congr fun statement hm => ensure?_eq_none_iff (hs statement hm).ne_empty
  have hc : c.lexicon.blockClose ≠ "" ∧ '\n' ∉ c.lexicon.blockClose.toList := by
    rw [hb.lexicon]
    exact closes_builtIn
  rw [hstands, ← endState_inject hb hq content, ← ensureAll_ensureAll_eq_iff hc.1 hc.2 hs
    (pairwise_statements hb ha d)]
  have hinject := inject_run hb ha d hq content
  rw [run, hinject]
  rfl

end

/-- A configuration that appends a script and a task. -/
def appending : Config :=
  { plugin := ⟨"org.trace", "plugin", "1.0"⟩
    append := { script := some "trace.gradle", task := some ⟨"report", "Report"⟩ } }

theorem quotable_appending :
    appending.BuiltIn ∧ appending.append.Quotable ∧ appending.plugin.Quotable := by
  refine ⟨⟨rfl, rfl, rfl⟩, ⟨?_, ?_, ?_⟩, ⟨?_, ?_, ?_⟩⟩
  · rintro _ ⟨⟩
    constructor <;> decide +kernel
  · rintro _ ⟨⟩
    unfold IsWord
    decide +kernel
  · rintro _ ⟨⟩
    unfold IsWord
    decide +kernel
  all_goals constructor <;> decide +kernel

/-- A lone quote and a line comment at the end of a script do not matter. -/
theorem run_run_eq_of_lone_quote :
    appending.BuiltIn ∧ appending.append.Quotable ∧ appending.plugin.Quotable ∧
      appending.run .kotlin (appending.run .kotlin "it's // /* \"") =
        appending.run .kotlin "it's // /* \"" := by
  obtain ⟨hb, ha, hq⟩ := quotable_appending
  have he : (appending.classify "it's // /* \"").endState = .code := by decide +kernel
  exact ⟨hb, ha, hq, (run_run_eq_iff hb ha .kotlin hq "it's // /* \"").mpr (.inl he)⟩

/-- Behind a block comment that nothing closes the statements are appended on every run. -/
theorem run_run_ne_of_open_comment :
    appending.BuiltIn ∧ appending.append.Quotable ∧ appending.plugin.Quotable ∧
      appending.run .groovy (appending.run .groovy "'org.trace:plugin:1.0' /*") ≠
        appending.run .groovy "'org.trace:plugin:1.0' /*" := by
  obtain ⟨hb, ha, hq⟩ := quotable_appending
  exact ⟨hb, ha, hq, by decide +kernel⟩

end Config
end Graft
