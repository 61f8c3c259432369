import Graft.Config.Basic
import Graft.Proofs.Scan.BuiltIn
import Graft.Proofs.Text.Substitution

/-! # The built-in templates

What the built-in templates write when the values can be quoted and the task is named by
words: everything around a quoted value is plain.
-/
namespace Graft
open Scan Text

/-- A text that can stand in double quotes on one line. -/
def Quotable (text : String) : Prop :=
  '"' ∉ text.toList ∧ '\n' ∉ text.toList

/-- A letter, a digit, an underscore or a dot. -/
def isWordChar (c : Char) : Bool :=
  c.isAlphanum || c = '_' || c = '.'

def IsWord (text : String) : Prop :=
  text.toList.all isWordChar = true

theorem IsWord.notMem {text : String} (h : IsWord text) {c : Char} (hc : isWordChar c = false) :
    c ∉ text.toList := by
  intro hm
  rw [List.all_eq_true.mp h c hm] at hc
  exact Bool.noConfusion hc

theorem IsWord.plain {text : String} (h : IsWord text) : text.toList.all isPlain = true := by
  refine List.all_eq_true.mpr fun c hm => isPlain_iff.mpr ⟨?_, ?_, ?_⟩ <;> rintro rfl <;>
    exact absurd hm (h.notMem (by decide))

def quote (text : String) : String :=
  .ofList (quoted text.toList)

@[simp] theorem toList_quote (text : String) : (quote text).toList = quoted text.toList := by
  simp [quote]

namespace Config

/-- A configuration with the built-in marker, templates and lexicon. -/
structure BuiltIn (c : Config) : Prop where
  target : c.target = {}
  templates : c.templates = {}
  lexicon : c.lexicon = {}

/-- A plugin whose coordinate can be quoted. -/
structure Plugin.Quotable (p : Plugin) : Prop where
  group : Graft.Quotable p.group
  name : Graft.Quotable p.name
  version : Graft.Quotable p.version

theorem Plugin.Quotable.coordinate {p : Plugin} (h : p.Quotable) : Graft.Quotable p.coordinate := by
  obtain ⟨⟨hg, hg'⟩, ⟨hn, hn'⟩, hv, hv'⟩ := h
  simp [Graft.Quotable, Plugin.coordinate, hg, hg', hn, hn', hv, hv']

def declarationLead : String :=
  "\n    dependencies \x7b\n        classpath("

def declarationTail : String :=
  ")\n    \x7d\n    repositories \x7b\n        mavenCentral()\n    \x7d"

theorem substituteFrom_dependency (value : List Char) :
    substituteFrom Placeholder.coordinate.text.toList value 0
        ({} : Templates).dependency.toList ++ ({} : Templates).repository.toList =
      declarationLead.toList ++ '"' :: (value ++ '"' :: declarationTail.toList) := by
  simp [substituteFrom, declarationLead, declarationTail, Placeholder.text, List.isPrefixOf]

theorem BuiltIn.declaration {c : Config} (h : c.BuiltIn) :
    c.declaration = declarationLead ++ quote c.plugin.coordinate ++ declarationTail := by
  have hs := substituteFrom_dependency c.plugin.coordinate.toList
  rw [← String.toList_inj, Config.declaration, h.templates, fill, substitute]
  simpa [quoted] using hs

/-! ## Statements -/

/-- What is to be appended can be quoted and is named by words. -/
structure Append.Quotable (a : Append) : Prop where
  script : ∀ script ∈ a.script, Graft.Quotable script
  name : ∀ task ∈ a.task, IsWord task.name
  className : ∀ task ∈ a.task, IsWord task.className

def applyLead : Dialect → String
  | .groovy => "\napply from: "
  | .kotlin => "\napply("

def applyTail : Dialect → String
  | .groovy => ""
  | .kotlin => ")"

theorem BuiltIn.applyStatement {c : Config} (h : c.BuiltIn) (d : Dialect) (script : String) :
    c.applyStatement d script = applyLead d ++ quote script ++ applyTail d := by
  rw [← String.toList_inj, Config.applyStatement, h.templates, fill, substitute]
  cases d <;>
    simp [Templates.statements, Placeholder.text, applyLead, applyTail, quoted, substituteFrom,
      List.isPrefixOf]

/-- A word holds no placeholder. -/
theorem substituteFrom_word {word : String} (h : IsWord word) (placeholder : Placeholder)
    (new rest : List Char) :
    substituteFrom placeholder.text.toList new 0 (word.toList ++ rest) =
      word.toList ++ substituteFrom placeholder.text.toList new 0 rest := by
  have hb : '{' ∉ word.toList := h.notMem (by decide)
  cases placeholder <;> exact substituteFrom_append hb rest

theorem BuiltIn.taskStatement_groovy {c : Config} (h : c.BuiltIn) {name : String}
    (hn : IsWord name) (className : String) :
    c.taskStatement .groovy name className =
      "\n\ntask " ++ name ++ "(type: " ++ className ++ ")" := by
  have hname (value : List Char) : substituteFrom Placeholder.taskName.text.toList value 0
      (({} : Templates).statements .groovy).task.toList =
        "\n\ntask ".toList ++ (value ++ "(type: \x7bclass\x7d)".toList) := by
    simp [Templates.statements, Placeholder.text, substituteFrom, List.isPrefixOf]
  have hclass (value : List Char) : substituteFrom Placeholder.taskClass.text.toList value 0
      "(type: \x7bclass\x7d)".toList = "(type: ".toList ++ (value ++ [')']) := by
    simp [Placeholder.text, substituteFrom, List.isPrefixOf]
  have hlead (new rest : List Char) : substituteFrom Placeholder.taskClass.text.toList new 0
      ("\n\ntask ".toList ++ rest) =
        "\n\ntask ".toList ++ substituteFrom Placeholder.taskClass.text.toList new 0 rest :=
    substituteFrom_append (c := '{') (by decide) rest
  rw [← String.toList_inj, Config.taskStatement, h.templates]
  simp only [fill, substitute, String.toList_ofList, hname, hlead, substituteFrom_word hn, hclass]
  simp

theorem BuiltIn.taskStatement_kotlin {c : Config} (h : c.BuiltIn) {name : String}
    (hn : IsWord name) (className : String) :
    c.taskStatement .kotlin name className =
      "\n\ntasks.register<" ++ className ++ ">(" ++ quote name ++ ")" := by
  have hname (value : List Char) : substituteFrom Placeholder.taskName.text.toList value 0
      (({} : Templates).statements .kotlin).task.toList =
        "\n\ntasks.register<\x7bclass\x7d>(\"".toList ++ (value ++ "\")".toList) := by
    simp [Templates.statements, Placeholder.text, substituteFrom, List.isPrefixOf]
  have hclass (value rest : List Char) : substituteFrom Placeholder.taskClass.text.toList value 0
      ("\n\ntasks.register<\x7bclass\x7d>(\"".toList ++ rest) =
        "\n\ntasks.register<".toList ++ (value ++ (">(\"".toList ++
          substituteFrom Placeholder.taskClass.text.toList value 0 rest)) := by
    simp [Placeholder.text, substituteFrom, List.isPrefixOf]
  have htail (value : List Char) : substituteFrom Placeholder.taskClass.text.toList value 0
      "\")".toList = "\")".toList := by
    simp [Placeholder.text, substituteFrom, List.isPrefixOf]
  rw [← String.toList_inj, Config.taskStatement, h.templates]
  simp only [fill, substitute, String.toList_ofList, hname, hclass, substituteFrom_word hn, htail]
  simp [quoted]

end Config
end Graft
