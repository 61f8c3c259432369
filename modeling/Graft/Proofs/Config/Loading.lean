import Mathlib
import Graft.Config.Source
import Graft.Proofs.Config.Overlay
import Graft.Proofs.Except

/-! # Loading the settings of a document

Every setting has a built-in value, but for the statements of a dialect only as long as the
table of that dialect is absent: in a table that is present the statement left out is empty,
which validation refuses.  So a document loads as the built-in configuration with its settings
exactly when each such table has both statements.
-/
namespace Graft.Config
open Toml Text

/-- The built-in configuration with the settings of a document in place of its own. -/
def withSettings (document : Entries) : Config :=
  ({} : Config).overlay ({} : Templates).statements document

/-- A configuration when it is valid, otherwise the report of its issues. -/
def accept (origin : Origin) (c : Config) : Except LoadError Config :=
  match c.validate with
  | .ok _ => .ok c
  | .error issues => .error ⟨origin, .rejected issues⟩

theorem issues_eq_of_accept_eq {origin : Origin} {c c' : Config}
    (h : accept origin c = accept origin c') : c.issues = c'.issues := by
  unfold accept validate at h
  by_cases hc : c.issues = [] <;> by_cases hc' : c'.issues = [] <;> simp_all

/-- The table of a dialect's statements. -/
def statementsAt? (d : Dialect) (document : Entries) : Option Entries :=
  (tableAt? "templates" document).bind (tableAt? d.name)

/-- Every dialect whose table is present has both of its statements there. -/
def StatementsComplete (document : Entries) : Prop :=
  ∀ d given, statementsAt? d document = some given →
    "apply" ∈ given.map Prod.fst ∧ "task" ∈ given.map Prod.fst

theorem statements_overlay {d : Dialect} {document given : Entries}
    (h : statementsAt? d document = some given) (base : Dialect → Statements) (c : Config) :
    (c.overlay base document).templates.statements d = (base d).overlay given := by
  obtain ⟨templates, ht, hg⟩ := Option.bind_eq_some_iff.mp h
  cases d <;> simp only [Dialect.name] at hg <;>
    simp [overlay, Templates.overlay, Templates.statements, ht, hg]

theorem overlay_congr {base base' : Dialect → Statements} {document : Entries}
    (h : ∀ d given, statementsAt? d document = some given →
      (base d).overlay given = (base' d).overlay given) (c : Config) :
    c.overlay base document = c.overlay base' document := by
  cases ht : tableAt? "templates" document with
  | none => simp [overlay, ht]
  | some templates =>
    have hd (d : Dialect) : (tableAt? d.name templates).map (base d).overlay =
        (tableAt? d.name templates).map (base' d).overlay :=
      Option.map_congr fun given hg => h d given (by simp [statementsAt?, ht, hg])
    have hg := hd .groovy
    have hk := hd .kotlin
    simp only [Dialect.name] at hg hk
    simp [overlay, ht, Templates.overlay, hg, hk]

theorem isTable_of_tableAt? {schema inner : Schema} {key : String} {entries given : Entries}
    (hk : KeepsTo schema entries) (hs : ∀ v, schema.Admits key v → IsTable inner v)
    (h : tableAt? key entries = some given) : KeepsTo inner given := by
  obtain ⟨v, hm, hv⟩ := exists_mem_of_lookup? _ _ h
  obtain ⟨given, rfl, hg⟩ := hs v (hk _ hm)
  obtain rfl : given = _ := by simpa [Value.table?] using hv
  exact hg

theorem keepsTo_of_statementsAt? {document : Entries} (hd : KeepsTo schema document)
    {d : Dialect} {given : Entries} (h : statementsAt? d document = some given) :
    KeepsTo Statements.schema given := by
  obtain ⟨templates, ht, hg⟩ := Option.bind_eq_some_iff.mp h
  have hk : KeepsTo Templates.schema templates := isTable_of_tableAt? hd (by simp [schema]) ht
  exact isTable_of_tableAt? hk (by cases d <;> simp [Templates.schema, Dialect.name]) hg

theorem load_eq_accept {text : String} {document : Entries} (hp : parse? text = some document)
    (hd : KeepsTo schema document) (origin : Origin) :
    load origin text = accept origin (({} : Config).overlay (fun _ => {}) document) := by
  have hdecode := decode_table hd
  generalize ({} : Config).overlay (fun _ => {}) document = c at hdecode
  cases hv : c.validate <;>
    simp [load, ofText, hp, ofEntries, hdecode, accept, hv, bind, Except.bind, pure, Except.pure]

/-! ## Statements left out -/

theorem mem_requirePlaceholder_iff {field other template : String} {p q : Placeholder} :
    .missingPlaceholder field p ∈ requirePlaceholder other template q ↔
      field = other ∧ p = q ∧ contains q.text.toList template.toList = false := by
  unfold requirePlaceholder
  split <;> simp_all

theorem missingPlaceholder_notMem_requireText {field other value : String} {p : Placeholder} :
    .missingPlaceholder field p ∉ requireText other value := by
  unfold requireText
  split <;> simp

theorem missingPlaceholder_notMem_requireVersion {field version : String} {p : Placeholder} :
    .missingPlaceholder field p ∉ requireVersion version := by
  unfold requireVersion
  split
  · simp
  · split <;> simp

theorem missingPlaceholder_notMem_requireDistinct {field : String} {p : Placeholder}
    {l : Scan.Lexicon} : .missingPlaceholder field p ∉ requireDistinct l := by
  unfold requireDistinct
  split <;> split <;> simp

theorem missingPlaceholder_notMem_requireTask {field : String} {p : Placeholder}
    {task : Option TaskEntry} : .missingPlaceholder field p ∉ requireTask task := by
  cases task <;> simp [requireTask, missingPlaceholder_notMem_requireText]

theorem missingPlaceholder_notMem_requireScript {field : String} {p : Placeholder}
    {script : Option String} : .missingPlaceholder field p ∉ requireScript script := by
  cases script <;> simp [requireScript, missingPlaceholder_notMem_requireText]

/-- A statement of a dialect is missing its placeholder exactly when an issue says so. -/
theorem missingPlaceholder_mem_issues_iff (c : Config) (d : Dialect) :
    (.missingPlaceholder ("templates." ++ d.name ++ ".apply") .script ∈ c.issues ↔
        contains Placeholder.script.text.toList (c.templates.statements d).apply.toList = false) ∧
      (.missingPlaceholder ("templates." ++ d.name ++ ".task") .taskName ∈ c.issues ↔
        contains Placeholder.taskName.text.toList
          (c.templates.statements d).task.toList = false) := by
  simp only [issues, List.mem_append, mem_requirePlaceholder_iff,
    missingPlaceholder_notMem_requireText, missingPlaceholder_notMem_requireVersion,
    missingPlaceholder_notMem_requireDistinct, missingPlaceholder_notMem_requireTask,
    missingPlaceholder_notMem_requireScript, or_false, false_or]
  cases d <;> simp [Dialect.name, Templates.statements]

/-- With the same issues the same statements have their placeholders. -/
theorem contains_eq_of_issues_eq {c c' : Config} (h : c.issues = c'.issues) (d : Dialect) :
    contains Placeholder.script.text.toList (c.templates.statements d).apply.toList =
        contains Placeholder.script.text.toList (c'.templates.statements d).apply.toList ∧
      contains Placeholder.taskName.text.toList (c.templates.statements d).task.toList =
        contains Placeholder.taskName.text.toList (c'.templates.statements d).task.toList := by
  obtain ⟨ha, ht⟩ := missingPlaceholder_mem_issues_iff c d
  obtain ⟨ha', ht'⟩ := missingPlaceholder_mem_issues_iff c' d
  rw [h] at ha ht
  exact ⟨Bool.eq_iff_iff.mpr (by simpa using not_congr (ha.symm.trans ha')),
    Bool.eq_iff_iff.mpr (by simpa using not_congr (ht.symm.trans ht'))⟩

theorem contains_builtIn (d : Dialect) :
    contains Placeholder.script.text.toList (({} : Templates).statements d).apply.toList = true ∧
      contains Placeholder.taskName.text.toList
        (({} : Templates).statements d).task.toList = true := by
  cases d <;> decide +kernel

theorem contains_nil (p : Placeholder) : contains p.text.toList [] = false := by
  cases p <;> decide

/-- A statement that its table leaves out is decoded without its placeholder. -/
theorem statementsComplete_of_contains {document : Entries}
    (h : ∀ d given, statementsAt? d document = some given →
      ("apply" ∉ given.map Prod.fst → contains Placeholder.script.text.toList
          (({} : Statements).overlay given).apply.toList = true) ∧
        ("task" ∉ given.map Prod.fst → contains Placeholder.taskName.text.toList
          (({} : Statements).overlay given).task.toList = true)) :
    StatementsComplete document := by
  intro d given hg
  obtain ⟨ha, ht⟩ := h d given hg
  constructor
  · refine Decidable.byContradiction fun hn => ?_
    simpa [Statements.overlay, lookup?_eq_none Value.text? _ hn, contains_nil] using ha hn
  · refine Decidable.byContradiction fun hn => ?_
    simpa [Statements.overlay, lookup?_eq_none Value.text? _ hn, contains_nil] using ht hn

theorem statementsComplete_of_issues_eq {document : Entries}
    (h : (({} : Config).overlay (fun _ => {}) document).issues = (withSettings document).issues) :
    StatementsComplete document := by
  refine statementsComplete_of_contains fun d given hg => ?_
  obtain ⟨ha, ht⟩ := contains_eq_of_issues_eq h d
  obtain ⟨hba, hbt⟩ := contains_builtIn d
  rw [withSettings, statements_overlay hg, statements_overlay hg] at ha ht
  constructor
  · intro hn
    rw [ha]
    simp [Statements.overlay, lookup?_eq_none Value.text? _ hn, hba]
  · intro hn
    rw [ht]
    simp [Statements.overlay, lookup?_eq_none Value.text? _ hn, hbt]

theorem overlay_eq_withSettings {document : Entries} (hd : KeepsTo schema document)
    (h : StatementsComplete document) :
    ({} : Config).overlay (fun _ => {}) document = withSettings document := by
  refine overlay_congr (fun d given hg => ?_) _
  have hk := keepsTo_of_statementsAt? hd hg
  have htexts : ∀ field ∈ Statements.schema, field.2 = IsText := by simp [Statements.schema]
  obtain ⟨ha, ht⟩ := h d given hg
  obtain ⟨apply, ha⟩ := Option.isSome_iff_exists.mp (isSome_textAt? htexts hk ha)
  obtain ⟨task, ht⟩ := Option.isSome_iff_exists.mp (isSome_textAt? htexts hk ht)
  simp [Statements.overlay, ha, ht]

theorem load_eq_accept_withSettings_iff {text : String} {document : Entries}
    (hp : parse? text = some document) (hd : KeepsTo schema document) (origin : Origin) :
    load origin text = accept origin (withSettings document) ↔ StatementsComplete document := by
  rw [load_eq_accept hp hd]
  constructor
  · exact fun h => statementsComplete_of_issues_eq (issues_eq_of_accept_eq h)
  · exact fun h => by rw [overlay_eq_withSettings hd h]

/-- Both statements of one dialect. -/
theorem load_eq_accept_withSettings_kotlin :
    let text := "[templates.kotlin]\ntask='\x7bname\x7d'\napply='\x7bscript\x7d'"
    let document : Entries :=
      [("templates", .table [("kotlin", .table
        [("task", .string "\x7bname\x7d"), ("apply", .string "\x7bscript\x7d")])])]
    parse? text = some document ∧ KeepsTo schema document ∧ StatementsComplete document ∧
      load .inline text = accept .inline (withSettings document) := by
  intro text document
  have hp : parse? text = some document := by cbv
  have hd : KeepsTo schema document := by
    simp [document, schema, Templates.schema, Statements.schema]
  have hs : StatementsComplete document := by
    intro d given hg
    cases d <;> simp [statementsAt?, document, Dialect.name, Value.table?] at hg
    simp [← hg]
  exact ⟨hp, hd, hs, (load_eq_accept_withSettings_iff hp hd .inline).mpr hs⟩

/-- A document with one statement of a dialect is rejected for want of the other. -/
theorem load_ne_accept_withSettings_groovy :
    let text := "[templates.groovy]\napply = 'from(\x7bscript\x7d)'\n"
    let document : Entries :=
      [("templates", .table [("groovy", .table [("apply", .string "from(\x7bscript\x7d)")])])]
    parse? text = some document ∧ KeepsTo schema document ∧
      (withSettings document).validate = .ok () ∧
      load .inline text = .error ⟨.inline,
        .rejected [.missingPlaceholder "templates.groovy.task" .taskName]⟩ := by
  intro text document
  have hp : parse? text = some document := by cbv
  have hd : KeepsTo schema document := by
    simp [document, schema, Templates.schema, Statements.schema]
  refine ⟨hp, hd, validate_eq_ok_iff.mpr (by decide +kernel), ?_⟩
  have hi : (({} : Config).overlay (fun _ => {}) document).issues =
      [.missingPlaceholder "templates.groovy.task" .taskName] := by decide +kernel
  rw [load_eq_accept hp hd]
  simp [accept, validate, hi]

end Graft.Config
