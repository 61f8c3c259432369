import Graft.Proofs.Config.Settings

/-! # Documents that load

A document whose records are tables loads only if it keeps to the schema of a configuration at
every level, for a decoder accepts no other table (`keepsTo_of_decode`).  Validation then
refuses a dialect with one of its statements left out, the only setting whose absence decoding
does not make up for by the built-in value.
-/
namespace Graft.Toml

namespace Decoder

theorem text_eq_ok_iff {v : Value} {text : String} :
    Decoder.text v = .ok text ↔ v = .string text := by
  cases v <;> simp [Decoder.text]

theorem character_eq_ok_iff {v : Value} {c : Char} :
    character v = .ok c ↔ v = .string (.singleton c) := by
  constructor
  · intro h
    unfold character at h
    split at h
    · next text =>
      split at h
      · next d ht =>
        obtain rfl := Except.ok.inj h
        obtain rfl : text = .singleton d := by simpa [← String.toList_inj] using ht
        rfl
      · cases h
    · cases h
  · rintro rfl
    exact character_singleton c

end Decoder

section
variable {α : Type} {v : Value} {r : α}

theorem isText_of_bind {f : String → Except DecodeError α} (h : Decoder.text v >>= f = .ok r) :
    IsText v := by
  obtain ⟨text, ht, -⟩ := bind_eq_ok_iff.mp h
  exact ⟨text, Decoder.text_eq_ok_iff.mp ht⟩

theorem isCharacter_of_bind {f : Char → Except DecodeError α}
    (h : Decoder.character v >>= f = .ok r) : IsCharacter v := by
  obtain ⟨c, hc, -⟩ := bind_eq_ok_iff.mp h
  exact ⟨c, Decoder.character_eq_ok_iff.mp hc⟩

/-- A table that is read setting by setting keeps to the schema that each setting keeps to. -/
theorem keepsTo_of_record {schema : Schema} {set : α → String → Value → Except DecodeError α}
    {entries : Entries}
    (hset : ∀ r key v r', (key, v) ∈ entries → set r key v = .ok r' → schema.Admits key v)
    {name : String} {fields : List String} {default : α}
    (h : Decoder.record name fields default set (.table entries) = .ok r) :
    KeepsTo schema entries := by
  change entries.foldlM (fun r entry => set r entry.1 entry.2) default = .ok r at h
  induction entries generalizing default with
  | nil => exact keepsTo_nil schema
  | cons entry rest ih =>
    rw [List.foldlM_cons] at h
    obtain ⟨next, hfirst, hrest⟩ := bind_eq_ok_iff.mp h
    rw [keepsTo_cons]
    exact ⟨hset _ _ _ _ List.mem_cons_self hfirst,
      ih (fun r key v r' hm => hset r key v r' (List.mem_cons_of_mem _ hm)) hrest⟩

end

end Graft.Toml

namespace Graft.Config
open Toml

namespace Target

theorem admits_of_set {t t' : Target} {key : String} {v : Value} (h : set t key v = .ok t') :
    schema.Admits key v := by
  unfold set at h
  split at h
  · simp [schema, isText_of_bind h]
  · cases h

end Target

namespace Plugin

theorem admits_of_set {p p' : Plugin} {key : String} {v : Value} (h : set p key v = .ok p') :
    schema.Admits key v := by
  unfold set at h
  split at h
  case h_4 => cases h
  all_goals simp [schema, isText_of_bind h]

end Plugin

namespace Statements

theorem admits_of_set {s s' : Statements} {key : String} {v : Value} (h : set s key v = .ok s') :
    schema.Admits key v := by
  unfold set at h
  split at h
  case h_3 => cases h
  all_goals simp [schema, isText_of_bind h]

end Statements

namespace Templates

theorem admits_of_set {t t' : Templates} {key : String} {v : Value}
    (hv : key = "groovy" ∨ key = "kotlin" → ∃ given, v = .table given)
    (h : set t key v = .ok t') : schema.Admits key v := by
  have hdialect {s : Statements} {given : Entries} (hs : Statements.decode (.table given) = .ok s) :
      KeepsTo Statements.schema given :=
    keepsTo_of_record (fun _ _ _ _ _ => Statements.admits_of_set) hs
  unfold set at h
  split at h
  case h_1 | h_2 => simp [schema, isText_of_bind h]
  case h_3 | h_4 =>
    obtain ⟨given, rfl⟩ := hv (by simp)
    obtain ⟨s, hs, -⟩ := bind_eq_ok_iff.mp h
    simp [schema, hdialect hs]
  case h_5 => cases h

end Templates

namespace Lexicon

theorem admits_of_set {l l' : Scan.Lexicon} {key : String} {v : Value} (h : set l key v = .ok l') :
    schema.Admits key v := by
  unfold set at h
  split at h
  case h_1 | h_2 | h_3 => simp [schema, isText_of_bind h]
  case h_4 | h_5 => simp [schema, isCharacter_of_bind h]
  case h_6 => cases h

end Lexicon

namespace TaskEntry

theorem admits_of_set {d d' : Draft} {key : String} {v : Value} (h : set d key v = .ok d') :
    schema.Admits key v := by
  unfold set at h
  split at h
  case h_3 => cases h
  all_goals simp [schema, isText_of_bind h]

theorem isTask_of_decode {given : Entries} {task : TaskEntry}
    (h : decode (.table given) = .ok task) : IsTask (.table given) := by
  obtain ⟨draft, hdraft, hfields⟩ := bind_eq_ok_iff.mp h
  have hk : KeepsTo schema given :=
    keepsTo_of_record (fun _ _ _ _ _ => admits_of_set) hdraft
  rw [sets.record_table hk] at hdraft
  obtain rfl := Except.ok.inj hdraft
  have hpresent {key text : String} (ht : textAt? key given = some text) :
      key ∈ given.map Prod.fst := by
    obtain ⟨v, hv, -⟩ := exists_mem_of_lookup? _ _ ht
    exact List.mem_map_of_mem hv
  split at hfields
  case h_1 name className hname hclass =>
    exact ⟨given, rfl, hk, hpresent (by simpa [Draft.overlay] using hname),
      hpresent (by simpa [Draft.overlay] using hclass)⟩
  all_goals cases hfields

end TaskEntry

namespace Append

theorem admits_of_set {a a' : Append} {key : String} {v : Value}
    (hv : key = "task" → ∃ given, v = .table given) (h : set a key v = .ok a') :
    schema.Admits key v := by
  unfold set at h
  split at h
  case h_1 => simp [schema, isText_of_bind h]
  case h_2 =>
    obtain ⟨given, rfl⟩ := hv rfl
    obtain ⟨task, ht, -⟩ := bind_eq_ok_iff.mp h
    simp [schema, TaskEntry.isTask_of_decode ht]
  case h_3 => cases h

end Append

/-- Every record of a configuration that a document has is written there as a table, and not
as an array of its fields. -/
structure RecordsAreTables (document : Entries) : Prop where
  record : ∀ key v, (key, v) ∈ document → key ∈ fields → ∃ given, v = .table given
  dialect : ∀ templates, ("templates", .table templates) ∈ document → ∀ key v,
    (key, v) ∈ templates → key = "groovy" ∨ key = "kotlin" → ∃ given, v = .table given
  task : ∀ append, ("append", .table append) ∈ document → ∀ v, ("task", v) ∈ append →
    ∃ given, v = .table given

theorem recordsAreTables_of_keepsTo {document : Entries} (hk : KeepsTo schema document) :
    RecordsAreTables document := by
  constructor
  · intro key v hm _
    have hv := hk _ hm
    simp only [schema, Schema.admits_cons, Schema.not_admits_nil, or_false] at hv
    obtain ⟨-, given, rfl, -⟩ | ⟨-, given, rfl, -⟩ | ⟨-, given, rfl, -⟩ | ⟨-, given, rfl, -⟩ |
      ⟨-, given, rfl, -⟩ := hv
    all_goals exact ⟨given, rfl⟩
  · intro templates hm key v hv hkey
    have hk : KeepsTo Templates.schema templates := by simpa [schema] using hk _ hm
    have hv := hk _ hv
    obtain rfl | rfl := hkey
    all_goals
      obtain ⟨given, rfl, -⟩ : IsTable Statements.schema v := by simpa [Templates.schema] using hv
      exact ⟨given, rfl⟩
  · intro append hm v hv
    have hk : KeepsTo Append.schema append := by simpa [schema] using hk _ hm
    obtain ⟨given, rfl, -⟩ : TaskEntry.IsTask v := by simpa [Append.schema] using hk _ hv
    exact ⟨given, rfl⟩

theorem admits_of_set {document : Entries} (ht : RecordsAreTables document) {c c' : Config}
    {key : String} {v : Value} (hm : (key, v) ∈ document) (h : set c key v = .ok c') :
    schema.Admits key v := by
  have hv := ht.record key v hm
  unfold set at h
  split at h
  case h_6 => cases h
  all_goals
    obtain ⟨given, rfl⟩ := hv (by simp [fields])
    obtain ⟨_, hs, -⟩ := bind_eq_ok_iff.mp h
  case h_1 =>
    have hk := keepsTo_of_record (fun _ _ _ _ _ => Target.admits_of_set) hs
    simp [schema, hk]
  case h_2 =>
    have hk := keepsTo_of_record (fun _ _ _ _ _ => Plugin.admits_of_set) hs
    simp [schema, hk]
  case h_3 =>
    have hk := keepsTo_of_record
      (fun _ _ _ _ hm => Templates.admits_of_set (ht.dialect given ‹_› _ _ hm)) hs
    simp [schema, hk]
  case h_4 =>
    have hk := keepsTo_of_record (fun _ _ _ _ _ => Lexicon.admits_of_set) hs
    simp [schema, hk]
  case h_5 =>
    have hk := keepsTo_of_record
      (fun _ _ _ _ hm => Append.admits_of_set fun hkey => ht.task given ‹_› _ (hkey ▸ hm)) hs
    simp [schema, hk]

theorem keepsTo_of_decode {document : Entries} (ht : RecordsAreTables document) {c : Config}
    (h : decode (.table document) = .ok c) : KeepsTo schema document :=
  keepsTo_of_record (fun _ _ _ _ hm => admits_of_set ht hm) h

theorem statementsComplete_of_valid {document : Entries}
    (h : (({} : Config).overlay (fun _ => {}) document).issues = []) :
    StatementsComplete document := by
  refine statementsComplete_of_contains fun d given hg => ?_
  obtain ⟨ha, ht⟩ := missingPlaceholder_mem_issues_iff
    (({} : Config).overlay (fun _ => {}) document) d
  rw [h, statements_overlay hg] at ha ht
  exact ⟨fun _ => by simpa using ha, fun _ => by simpa using ht⟩

theorem decode_of_load {origin : Origin} {text : String} {document : Entries} {c : Config}
    (hp : parse? text = some document) (h : load origin text = .ok c) :
    decode (.table document) = .ok c ∧ c.validate = .ok () := by
  have hof : ofEntries document = .ok c := by
    simpa [load, mapError_eq_ok_iff, ofText, hp] using h
  obtain ⟨_, hdecode, hrest⟩ := bind_eq_ok_iff.mp hof
  obtain ⟨_, hvalid, hc⟩ := bind_eq_ok_iff.mp hrest
  obtain rfl := Except.ok.inj hc
  exact ⟨mapError_eq_ok_iff.mp hdecode, mapError_eq_ok_iff.mp hvalid⟩

/-- A document that loads names no key but those of the schema, and its configuration is valid
and has the settings of the document, with the built-in value for each that the document leaves
out.  Such a configuration is loaded from it whenever no dialect lacks one of its statements. -/
theorem load_eq_ok_iff_settings {origin : Origin} {text : String} {document : Entries}
    {c : Config} (hp : parse? text = some document) (ht : RecordsAreTables document) :
    load origin text = .ok c ↔
      c.validate = .ok () ∧ KeepsTo schema document ∧ StatementsComplete document ∧
        c.settings = ({} : Config).settings.updated (.table document) := by
  constructor
  · intro h
    obtain ⟨hdecode, hvalid⟩ := decode_of_load hp h
    have hk := keepsTo_of_decode ht hdecode
    -- decoding starts each dialect from empty statements, which only validation rules out
    rw [decode_table hk] at hdecode
    obtain rfl := Except.ok.inj hdecode
    have hs := statementsComplete_of_valid (validate_eq_ok_iff.mp hvalid)
    refine ⟨hvalid, hk, hs, ?_⟩
    rw [overlay_eq_withSettings hk hs, settings_withSettings hk]
  · rintro ⟨hvalid, hk, hs, hsettings⟩
    obtain rfl : c = withSettings document :=
      settings_injective (hsettings.trans (settings_withSettings hk).symm)
    rw [load_eq_accept hp hk, overlay_eq_withSettings hk hs, accept, hvalid]

set_option maxRecDepth 1024 in
/-- Both statements of one dialect and a script. -/
theorem load_eq_ok_iff_settings_kotlin :
    let text := "append.script='s'\n[templates.kotlin]\napply='\x7bscript\x7d'\ntask='\x7bname\x7d'"
    let document : Entries :=
      [("append", .table [("script", .string "s")]),
        ("templates", .table [("kotlin", .table
          [("apply", .string "\x7bscript\x7d"), ("task", .string "\x7bname\x7d")])])]
    parse? text = some document ∧ RecordsAreTables document ∧
      load .inline text = .ok (withSettings document) ∧
      (withSettings document).validate = .ok () ∧ KeepsTo schema document ∧
      (withSettings document).settings = ({} : Config).settings.updated (.table document) := by
  intro text document
  have hp : parse? text = some document := by cbv
  have hk : KeepsTo schema document := by
    simp [document, schema, Templates.schema, Statements.schema, Append.schema]
  have ht := recordsAreTables_of_keepsTo hk
  have hvalid : (withSettings document).validate = .ok () :=
    validate_eq_ok_iff.mpr (by decide +kernel)
  have hs : StatementsComplete document := by
    intro d given hg
    cases d <;> simp [statementsAt?, document, Dialect.name, Value.table?] at hg
    simp [← hg]
  have hsettings := settings_withSettings hk
  exact ⟨hp, ht, (load_eq_ok_iff_settings hp ht).mpr ⟨hvalid, hk, hs, hsettings⟩, hvalid, hk,
    hsettings⟩

end Graft.Config
