import Graft.Config.Decode
import Graft.Proofs.Toml.Record

/-! # A configuration with the settings of a document

Each table of a configuration has a schema, and a document that keeps to them decodes to the
built-in configuration with its settings laid over.  A dialect whose table is present starts
from empty statements though, not from the built-in ones (`decode_table`).
-/
namespace Graft.Config
open Toml

namespace Target

def schema : Schema := [("marker", IsText)]

def overlay (t : Target) (given : Entries) : Target :=
  { marker := (textAt? "marker" given).getD t.marker }

theorem sets : Sets schema set overlay where
  nil _ := rfl
  step t key v h := by
    simp only [schema, Schema.admits_cons, Schema.not_admits_nil, or_false] at h
    obtain ⟨rfl, text, rfl⟩ := h
    exact ⟨_, rfl, fun rest => by simp [overlay, Value.text?]⟩

end Target

namespace Plugin

def schema : Schema := [("group", IsText), ("name", IsText), ("version", IsText)]

def overlay (p : Plugin) (given : Entries) : Plugin :=
  { group := (textAt? "group" given).getD p.group
    name := (textAt? "name" given).getD p.name
    version := (textAt? "version" given).getD p.version }

theorem sets : Sets schema set overlay where
  nil _ := rfl
  step p key v h := by
    simp only [schema, Schema.admits_cons, Schema.not_admits_nil, or_false] at h
    obtain ⟨rfl, text, rfl⟩ | ⟨rfl, text, rfl⟩ | ⟨rfl, text, rfl⟩ := h
    all_goals exact ⟨_, rfl, fun rest => by simp [overlay, Value.text?]⟩

end Plugin

namespace Statements

def schema : Schema := [("apply", IsText), ("task", IsText)]

def overlay (s : Statements) (given : Entries) : Statements :=
  { apply := (textAt? "apply" given).getD s.apply
    task := (textAt? "task" given).getD s.task }

theorem sets : Sets schema set overlay where
  nil _ := rfl
  step s key v h := by
    simp only [schema, Schema.admits_cons, Schema.not_admits_nil, or_false] at h
    obtain ⟨rfl, text, rfl⟩ | ⟨rfl, text, rfl⟩ := h
    all_goals exact ⟨_, rfl, fun rest => by simp [overlay, Value.text?]⟩

end Statements

namespace Templates

def schema : Schema :=
  [("dependency", IsText), ("repository", IsText), ("groovy", IsTable Statements.schema),
    ("kotlin", IsTable Statements.schema)]

/-- The settings of a dialect whose table is present are laid over `base`. -/
def overlay (base : Dialect → Statements) (t : Templates) (given : Entries) : Templates :=
  { dependency := (textAt? "dependency" given).getD t.dependency
    repository := (textAt? "repository" given).getD t.repository
    groovy := ((tableAt? "groovy" given).map (base .groovy).overlay).getD t.groovy
    kotlin := ((tableAt? "kotlin" given).map (base .kotlin).overlay).getD t.kotlin }

theorem sets : Sets schema set (overlay fun _ => {}) where
  nil _ := rfl
  step t key v h := by
    simp only [schema, Schema.admits_cons, Schema.not_admits_nil, or_false] at h
    obtain ⟨rfl, text, rfl⟩ | ⟨rfl, text, rfl⟩ | ⟨rfl, given, rfl, hk⟩ | ⟨rfl, given, rfl, hk⟩ := h
    · exact ⟨_, rfl, fun rest => by simp [overlay, Value.text?]⟩
    · exact ⟨_, rfl, fun rest => by simp [overlay, Value.text?]⟩
    · refine ⟨{ t with groovy := ({} : Statements).overlay given }, ?_,
        fun rest => by simp [overlay, Value.table?]⟩
      simp only [set, Statements.decode, Statements.sets.record_table hk]
      rfl
    · refine ⟨{ t with kotlin := ({} : Statements).overlay given }, ?_,
        fun rest => by simp [overlay, Value.table?]⟩
      simp only [set, Statements.decode, Statements.sets.record_table hk]
      rfl

end Templates

namespace Lexicon

def schema : Schema :=
  [("line_comment", IsText), ("block_open", IsText), ("block_close", IsText),
    ("string_quote", IsCharacter), ("char_quote", IsCharacter)]

def overlay (l : Scan.Lexicon) (given : Entries) : Scan.Lexicon :=
  { lineComment := (textAt? "line_comment" given).getD l.lineComment
    blockOpen := (textAt? "block_open" given).getD l.blockOpen
    blockClose := (textAt? "block_close" given).getD l.blockClose
    stringQuote := (characterAt? "string_quote" given).getD l.stringQuote
    charQuote := (characterAt? "char_quote" given).getD l.charQuote }

theorem sets : Sets schema set overlay where
  nil _ := rfl
  step l key v h := by
    simp only [schema, Schema.admits_cons, Schema.not_admits_nil, or_false] at h
    obtain ⟨rfl, text, rfl⟩ | ⟨rfl, text, rfl⟩ | ⟨rfl, text, rfl⟩ | ⟨rfl, c, rfl⟩ |
      ⟨rfl, c, rfl⟩ := h
    · exact ⟨_, rfl, fun rest => by simp [overlay, Value.text?]⟩
    · exact ⟨_, rfl, fun rest => by simp [overlay, Value.text?]⟩
    · exact ⟨_, rfl, fun rest => by simp [overlay, Value.text?]⟩
    · refine ⟨{ l with stringQuote := c }, ?_, fun rest => by simp [overlay]⟩
      simp only [set, Decoder.character_singleton]
      rfl
    · refine ⟨{ l with charQuote := c }, ?_, fun rest => by simp [overlay]⟩
      simp only [set, Decoder.character_singleton]
      rfl

end Lexicon

namespace TaskEntry

def schema : Schema := [("name", IsText), ("class", IsText)]

/-- A table with both fields of a task. -/
def IsTask (v : Value) : Prop :=
  ∃ given, v = .table given ∧ KeepsTo schema given ∧ "name" ∈ given.map Prod.fst ∧
    "class" ∈ given.map Prod.fst

def ofValue? (v : Value) : Option TaskEntry := do
  let given ← v.table?
  return ⟨← textAt? "name" given, ← textAt? "class" given⟩

def Draft.overlay (d : Draft) (given : Entries) : Draft :=
  { name := (textAt? "name" given).or d.name
    className := (textAt? "class" given).or d.className }

theorem sets : Sets schema set Draft.overlay where
  nil _ := rfl
  step d key v h := by
    simp only [schema, Schema.admits_cons, Schema.not_admits_nil, or_false] at h
    obtain ⟨rfl, text, rfl⟩ | ⟨rfl, text, rfl⟩ := h
    all_goals exact ⟨_, rfl, fun rest => by simp [Draft.overlay, Value.text?]⟩

theorem decode_task {v : Value} (h : IsTask v) :
    ∃ task, ofValue? v = some task ∧ decode v = .ok task := by
  obtain ⟨given, rfl, hk, hn, hc⟩ := h
  have htexts : ∀ field ∈ schema, field.2 = IsText := by simp [schema]
  obtain ⟨name, hn⟩ := Option.isSome_iff_exists.mp (isSome_textAt? htexts hk hn)
  obtain ⟨className, hc⟩ := Option.isSome_iff_exists.mp (isSome_textAt? htexts hk hc)
  refine ⟨⟨name, className⟩, by simp [ofValue?, Value.table?, hn, hc], ?_⟩
  simp only [decode, sets.record_table hk, Draft.overlay, hn, hc]
  rfl

end TaskEntry

namespace Append

def schema : Schema := [("script", IsText), ("task", TaskEntry.IsTask)]

def overlay (a : Append) (given : Entries) : Append :=
  { script := (textAt? "script" given).or a.script
    task := (lookup? TaskEntry.ofValue? "task" given).or a.task }

theorem sets : Sets schema set overlay where
  nil a := rfl
  step a key v h := by
    simp only [schema, Schema.admits_cons, Schema.not_admits_nil, or_false] at h
    obtain ⟨rfl, text, rfl⟩ | ⟨rfl, ht⟩ := h
    · exact ⟨_, rfl, fun rest => by simp [overlay, Value.text?]⟩
    · obtain ⟨task, ht, hd⟩ := TaskEntry.decode_task ht
      refine ⟨{ a with task := some task }, ?_, fun rest => by simp [overlay, ht]⟩
      simp only [set, hd]
      rfl

end Append

def schema : Schema :=
  [("target", IsTable Target.schema), ("plugin", IsTable Plugin.schema),
    ("templates", IsTable Templates.schema), ("lexicon", IsTable Lexicon.schema),
    ("append", IsTable Append.schema)]

/-- A configuration with the settings of a document in place of its own.  The settings of a
dialect whose table is present are laid over `base`. -/
def overlay (base : Dialect → Statements) (c : Config) (document : Entries) : Config :=
  { target := ((tableAt? "target" document).map ({} : Target).overlay).getD c.target
    plugin := ((tableAt? "plugin" document).map ({} : Plugin).overlay).getD c.plugin
    templates :=
      ((tableAt? "templates" document).map (({} : Templates).overlay base)).getD c.templates
    lexicon := ((tableAt? "lexicon" document).map (Lexicon.overlay {})).getD c.lexicon
    append := ((tableAt? "append" document).map ({} : Append).overlay).getD c.append }

theorem sets : Sets schema set (overlay fun _ => {}) where
  nil _ := rfl
  step c key v h := by
    simp only [schema, Schema.admits_cons, Schema.not_admits_nil, or_false] at h
    obtain ⟨rfl, given, rfl, hk⟩ | ⟨rfl, given, rfl, hk⟩ | ⟨rfl, given, rfl, hk⟩ |
      ⟨rfl, given, rfl, hk⟩ | ⟨rfl, given, rfl, hk⟩ := h
    · refine ⟨{ c with target := ({} : Target).overlay given }, ?_,
        fun rest => by simp [overlay, Value.table?]⟩
      simp only [set, Target.decode, Target.sets.record_table hk]
      rfl
    · refine ⟨{ c with plugin := ({} : Plugin).overlay given }, ?_,
        fun rest => by simp [overlay, Value.table?]⟩
      simp only [set, Plugin.decode, Plugin.sets.record_table hk]
      rfl
    · refine ⟨{ c with templates := ({} : Templates).overlay (fun _ => {}) given }, ?_,
        fun rest => by simp [overlay, Value.table?]⟩
      simp only [set, Templates.decode, Templates.sets.record_table hk]
      rfl
    · refine ⟨{ c with lexicon := Lexicon.overlay {} given }, ?_,
        fun rest => by simp [overlay, Value.table?]⟩
      simp only [set, Lexicon.decode, Lexicon.sets.record_table hk]
      rfl
    · refine ⟨{ c with append := ({} : Append).overlay given }, ?_,
        fun rest => by simp [overlay, Value.table?]⟩
      simp only [set, Append.decode, Append.sets.record_table hk]
      rfl

theorem decode_table {document : Entries} (h : KeepsTo schema document) :
    decode (.table document) = .ok (({} : Config).overlay (fun _ => {}) document) :=
  sets.record_table h _ _ _

end Graft.Config
