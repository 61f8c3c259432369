import Graft.Proofs.Config.Loading

/-! # The settings of a configuration

A configuration is its settings, each at the path of keys under which a document has it.  What
a document says at a path is what its configuration has there; where it says nothing, the
built-in value stays.
-/
namespace Graft.Toml

/-- The value at the end of a path of keys. -/
def Value.at? : List String → Value → Option Value
  | [], v => some v
  | key :: path, .table entries => (lookup? some key entries).bind (at? path)
  | _ :: _, _ => none

section
variable {α : Type} {read : Value → Option α} {key : String} {entries : Entries}

/-- Where every value of a key can be read, the value that counts is the one that is read. -/
theorem lookup?_eq_bind (h : ∀ v, (key, v) ∈ entries → (read v).isSome = true) :
    lookup? read key entries = (lookup? some key entries).bind read := by
  induction entries with
  | nil => rfl
  | cons entry rest ih =>
    obtain ⟨other, v⟩ := entry
    rw [lookup?_cons, lookup?_cons, ih fun w hw => h w (List.mem_cons_of_mem _ hw)]
    -- a value further behind counts before this one, and it can be read
    cases hrest : lookup? some key rest with
    | none =>
      by_cases hkey : other = key <;> simp [hkey]
    | some w =>
      obtain ⟨_, hm, hw⟩ := exists_mem_of_lookup? _ _ hrest
      obtain rfl := Option.some.inj hw
      obtain ⟨value, hvalue⟩ := Option.isSome_iff_exists.mp (h _ (List.mem_cons_of_mem _ hm))
      simp [hvalue]

/-- A key whose values are all written in one way has the value that its reading is written
as. -/
theorem lookup?_eq_map {write : α → Value} (hread : ∀ a, read (write a) = some a)
    (h : ∀ v, (key, v) ∈ entries → ∃ a, v = write a) :
    lookup? some key entries = (lookup? read key entries).map write := by
  have hbind : lookup? read key entries = (lookup? some key entries).bind read := by
    refine lookup?_eq_bind fun v hv => ?_
    obtain ⟨a, rfl⟩ := h v hv
    simp [hread]
  rw [hbind]
  cases hlast : lookup? some key entries with
  | none => rfl
  | some w =>
    obtain ⟨_, hm, hw⟩ := exists_mem_of_lookup? _ _ hlast
    obtain rfl := Option.some.inj hw
    obtain ⟨a, rfl⟩ := h _ hm
    simp [hread]

end

section
variable {schema : Schema} {entries : Entries} (key : String) (hk : KeepsTo schema entries)
include hk

theorem at?_text (hs : ∀ v, schema.Admits key v → IsText v) :
    (Value.table entries).at? [key] = (textAt? key entries).map .string := by
  have hlast : lookup? some key entries = (textAt? key entries).map .string :=
    lookup?_eq_map (fun _ => rfl) fun v hv => hs v (hk _ hv)
  simp [Value.at?, hlast]

theorem at?_character (hs : ∀ v, schema.Admits key v → IsCharacter v) :
    (Value.table entries).at? [key] =
      (characterAt? key entries).map fun c => .string (.singleton c) := by
  have hlast : lookup? some key entries = (characterAt? key entries).map _ :=
    lookup?_eq_map Value.character?_singleton fun v hv => hs v (hk _ hv)
  simp [Value.at?, hlast]

theorem lookup?_table {inner : Schema} (hs : ∀ v, schema.Admits key v → IsTable inner v) :
    lookup? some key entries = (tableAt? key entries).map .table := by
  refine lookup?_eq_map (fun _ => rfl) fun v hv => ?_
  obtain ⟨given, rfl, -⟩ := hs v (hk _ hv)
  exact ⟨given, rfl⟩

end

/-! ## Settings and their paths -/

/-- Settings at their paths, some of which may have no value. -/
abbrev Settings := List (List String × Option Value)

namespace Settings

def within (key : String) (s : Settings) : Settings :=
  s.map fun (path, own) => (key :: path, own)

/-- Each setting with what a value has at its path, or else with what it had. -/
def updated (s : Settings) (v : Value) : Settings :=
  s.map fun (path, own) => (path, (v.at? path).or own)

theorem updated_append (s s' : Settings) (v : Value) :
    updated (s ++ s') v = s.updated v ++ s'.updated v :=
  List.map_append

theorem updated_within (key : String) (s : Settings) (entries : Entries) :
    (within key s).updated (.table entries) =
      within key (((lookup? some key entries).map s.updated).getD s) := by
  cases h : lookup? some key entries with
  | none => simp [within, updated, Value.at?, h]
  | some v => simp [within, updated, Value.at?, h]

/-- The settings of a record under a key are those that the table under that key gives. -/
theorem within_overlay {α : Type} {settings : α → Settings} {overlay : α → Entries → α}
    {schema inner : Schema} (key : String) {entries : Entries} (hk : KeepsTo schema entries)
    (hs : ∀ v, schema.Admits key v → IsTable inner v) (r : α)
    (h : ∀ given, KeepsTo inner given →
      settings (overlay r given) = (settings r).updated (.table given)) :
    within key (settings (((tableAt? key entries).map (overlay r)).getD r)) =
      (within key (settings r)).updated (.table entries) := by
  rw [updated_within, lookup?_table key hk hs]
  cases ht : tableAt? key entries with
  | none => rfl
  | some given =>
    obtain ⟨v, hm, hv⟩ := exists_mem_of_lookup? _ _ ht
    obtain ⟨given, rfl, hg⟩ := hs v (hk _ hm)
    obtain rfl := Option.some.inj hv
    simp [h _ hg]

end Settings
end Graft.Toml

namespace Graft.Config
open Toml

namespace Target

def settings (t : Target) : Settings :=
  [(["marker"], some (.string t.marker))]

theorem settings_overlay {given : Entries} (hk : KeepsTo schema given) (t : Target) :
    (t.overlay given).settings = t.settings.updated (.table given) := by
  simp [settings, Settings.updated, overlay, at?_text "marker" hk (by simp [schema])]

end Target

namespace Plugin

def settings (p : Plugin) : Settings :=
  [(["group"], some (.string p.group)), (["name"], some (.string p.name)),
    (["version"], some (.string p.version))]

theorem settings_overlay {given : Entries} (hk : KeepsTo schema given) (p : Plugin) :
    (p.overlay given).settings = p.settings.updated (.table given) := by
  simp [settings, Settings.updated, overlay, at?_text "group" hk (by simp [schema]),
    at?_text "name" hk (by simp [schema]), at?_text "version" hk (by simp [schema])]

end Plugin

namespace Statements

def settings (s : Statements) : Settings :=
  [(["apply"], some (.string s.apply)), (["task"], some (.string s.task))]

theorem settings_overlay {given : Entries} (hk : KeepsTo schema given) (s : Statements) :
    (s.overlay given).settings = s.settings.updated (.table given) := by
  simp [settings, Settings.updated, overlay, at?_text "apply" hk (by simp [schema]),
    at?_text "task" hk (by simp [schema])]

end Statements

namespace Templates

def settings (t : Templates) : Settings :=
  [(["dependency"], some (.string t.dependency)),
    (["repository"], some (.string t.repository))] ++
  Settings.within "groovy" t.groovy.settings ++ Settings.within "kotlin" t.kotlin.settings

theorem settings_overlay {given : Entries} (hk : KeepsTo schema given) (t : Templates) :
    (t.overlay t.statements given).settings = t.settings.updated (.table given) := by
  have hgroovy := Settings.within_overlay "groovy" hk (by simp [schema]) t.groovy
    fun inner hinner => Statements.settings_overlay hinner t.groovy
  have hkotlin := Settings.within_overlay "kotlin" hk (by simp [schema]) t.kotlin
    fun inner hinner => Statements.settings_overlay hinner t.kotlin
  simp only [settings, Settings.updated_append, ← hgroovy, ← hkotlin]
  simp [Settings.updated, overlay, statements, at?_text "dependency" hk (by simp [schema]),
    at?_text "repository" hk (by simp [schema])]

end Templates

namespace Lexicon

def settings (l : Scan.Lexicon) : Settings :=
  [(["line_comment"], some (.string l.lineComment)),
    (["block_open"], some (.string l.blockOpen)), (["block_close"], some (.string l.blockClose)),
    (["string_quote"], some (.string (.singleton l.stringQuote))),
    (["char_quote"], some (.string (.singleton l.charQuote)))]

theorem settings_overlay {given : Entries} (hk : KeepsTo schema given) (l : Scan.Lexicon) :
    settings (overlay l given) = (settings l).updated (.table given) := by
  simp [settings, Settings.updated, overlay, at?_text "line_comment" hk (by simp [schema]),
    at?_text "block_open" hk (by simp [schema]), at?_text "block_close" hk (by simp [schema]),
    at?_character "string_quote" hk (by simp [schema]),
    at?_character "char_quote" hk (by simp [schema])]

end Lexicon

namespace TaskEntry

def settings (task : Option TaskEntry) : Settings :=
  [(["name"], task.map (.string ·.name)), (["class"], task.map (.string ·.className))]

/-- A task has both of its settings, so nothing stays of another one. -/
theorem settings_of_isTask {v : Value} (h : IsTask v) (task : Option TaskEntry) :
    ∃ given, ofValue? v = some given ∧ settings (some given) = (settings task).updated v := by
  obtain ⟨given, hof, -⟩ := decode_task h
  refine ⟨given, hof, ?_⟩
  obtain ⟨entries, rfl, hk, -, -⟩ := h
  simp only [ofValue?, Value.table?, bind, pure, Option.bind_eq_some_iff, Option.some.injEq]
    at hof
  obtain ⟨_, rfl, name, hname, className, hclass, rfl⟩ := hof
  simp [settings, Settings.updated, at?_text "name" hk (by simp [schema]),
    at?_text "class" hk (by simp [schema]), hname, hclass]

end TaskEntry

namespace Append

def settings (a : Append) : Settings :=
  (["script"], a.script.map .string) :: Settings.within "task" (TaskEntry.settings a.task)

theorem settings_task {given : Entries} (hk : KeepsTo schema given) (task : Option TaskEntry) :
    TaskEntry.settings ((lookup? TaskEntry.ofValue? "task" given).or task) =
      ((lookup? some "task" given).map (TaskEntry.settings task).updated).getD
        (TaskEntry.settings task) := by
  have htask : ∀ v, ("task", v) ∈ given → TaskEntry.IsTask v := fun v hv => by
    simpa [schema] using hk _ hv
  have hlast : lookup? TaskEntry.ofValue? "task" given =
      (lookup? some "task" given).bind TaskEntry.ofValue? := by
    refine lookup?_eq_bind fun v hv => ?_
    obtain ⟨entry, hentry, -⟩ := TaskEntry.decode_task (htask v hv)
    simp [hentry]
  rw [hlast]
  cases h : lookup? some "task" given with
  | none => rfl
  | some v =>
    obtain ⟨_, hv, hw⟩ := exists_mem_of_lookup? _ _ h
    obtain rfl := Option.some.inj hw
    obtain ⟨entry, hentry, hs⟩ := TaskEntry.settings_of_isTask (htask _ hv) task
    simp [hentry, hs]

theorem settings_overlay {given : Entries} (hk : KeepsTo schema given) (a : Append) :
    (a.overlay given).settings = a.settings.updated (.table given) := by
  have htask := Settings.updated_within "task" (TaskEntry.settings a.task) given
  rw [← settings_task hk] at htask
  simp only [settings, Settings.updated, List.map_cons] at htask ⊢
  simp [htask, overlay, at?_text "script" hk (by simp [schema]), Option.map_or]

end Append

/-- Every setting of a configuration at the path of its keys. -/
def settings (c : Config) : Settings :=
  Settings.within "target" c.target.settings ++ Settings.within "plugin" c.plugin.settings ++
    Settings.within "templates" c.templates.settings ++
    Settings.within "lexicon" (Lexicon.settings c.lexicon) ++
    Settings.within "append" c.append.settings

/-- No part of a configuration is anything but a setting. -/
theorem settings_injective : Function.Injective settings := by
  rintro ⟨⟨_⟩, ⟨_, _, _⟩, ⟨_, _, ⟨_, _⟩, ⟨_, _⟩⟩, ⟨_, _, _, _, _⟩, ⟨script, _ | ⟨_, _⟩⟩⟩
    ⟨⟨_⟩, ⟨_, _, _⟩, ⟨_, _, ⟨_, _⟩, ⟨_, _⟩⟩, ⟨_, _, _, _, _⟩, ⟨script', _ | ⟨_, _⟩⟩⟩ h
  all_goals simp [settings, Settings.within, Target.settings, Plugin.settings,
    Templates.settings, Statements.settings, Lexicon.settings, Append.settings,
    TaskEntry.settings] at h ⊢
  -- all that is left to compare is the script, which may be absent
  all_goals
    have hscript : script = script' :=
      Option.map_injective (fun _ _ => Value.string.inj) (by simp [h])
    simp [h, hscript]

theorem settings_withSettings {document : Entries} (hk : KeepsTo schema document) :
    (withSettings document).settings = ({} : Config).settings.updated (.table document) := by
  have htarget := Settings.within_overlay "target" hk (by simp [schema]) ({} : Target)
    fun _ hg => Target.settings_overlay hg _
  have hplugin := Settings.within_overlay "plugin" hk (by simp [schema]) ({} : Plugin)
    fun _ hg => Plugin.settings_overlay hg _
  have htemplates := Settings.within_overlay "templates" hk (by simp [schema]) ({} : Templates)
    fun _ hg => Templates.settings_overlay hg _
  have hlexicon := Settings.within_overlay "lexicon" hk (by simp [schema]) ({} : Scan.Lexicon)
    fun _ hg => Lexicon.settings_overlay hg _
  have happend := Settings.within_overlay "append" hk (by simp [schema]) ({} : Append)
    fun _ hg => Append.settings_overlay hg _
  simp only [settings, Settings.updated_append, ← htarget, ← hplugin, ← htemplates, ← hlexicon,
    ← happend, withSettings, overlay]

end Graft.Config
