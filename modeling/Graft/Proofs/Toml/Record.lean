import Graft.Toml.Decode

/-! # Records laid over by tables

A table keeps to a schema when each of its keys is a field and each value has the type of its
field.  A decoder that gives one field after the other its value reads such a table as the
record with the settings of the table in place of its own (`Sets.record_table`).
-/
namespace Graft.Toml

namespace Value

def text? : Value → Option String
  | string text => some text
  | _ => none

def character? : Value → Option Char
  | string text =>
    match text.toList with
    | [c] => some c
    | _ => none
  | _ => none

def table? : Value → Option Entries
  | table entries => some entries
  | _ => none

end Value

section
variable {α : Type} (read : Value → Option α) (key : String)

/-- The value of a key as `read` reads it.  Of several values of one key the last counts. -/
def lookup? (entries : Entries) : Option α :=
  entries.reverse.findSome? fun entry => if entry.1 = key then read entry.2 else none

@[simp] theorem lookup?_nil : lookup? read key [] = none := rfl

@[simp] theorem lookup?_cons (other : String) (v : Value) (rest : Entries) :
    lookup? read key ((other, v) :: rest) =
      (lookup? read key rest).or (if other = key then read v else none) := by
  simp [lookup?, List.findSome?_append]

theorem exists_mem_of_lookup? {entries : Entries} {value : α}
    (h : lookup? read key entries = some value) :
    ∃ v, (key, v) ∈ entries ∧ read v = some value := by
  obtain ⟨⟨other, v⟩, hm, hr⟩ := List.exists_of_findSome?_eq_some h
  split at hr
  · next hkey => exact ⟨v, hkey ▸ List.mem_reverse.mp hm, hr⟩
  · cases hr

theorem lookup?_eq_none {entries : Entries} (h : key ∉ entries.map Prod.fst) :
    lookup? read key entries = none := by
  refine List.findSome?_eq_none_iff.mpr fun entry hm => if_neg ?_
  rintro rfl
  exact h (List.mem_map_of_mem (List.mem_reverse.mp hm))

theorem isSome_lookup? {entries : Entries} (hk : key ∈ entries.map Prod.fst)
    (h : ∀ v, (key, v) ∈ entries → (read v).isSome = true) :
    (lookup? read key entries).isSome = true := by
  obtain ⟨⟨_, v⟩, hm, rfl⟩ := List.mem_map.mp hk
  refine List.findSome?_isSome_iff.mpr ⟨_, List.mem_reverse.mpr hm, ?_⟩
  simpa using h v hm

end

abbrev textAt? : String → Entries → Option String :=
  lookup? Value.text?

abbrev characterAt? : String → Entries → Option Char :=
  lookup? Value.character?

abbrev tableAt? : String → Entries → Option Entries :=
  lookup? Value.table?

/-! ## Schemas -/

/-- The fields of a record, each with what its values have to be. -/
abbrev Schema := List (String × (Value → Prop))

/-- A key is a field of a schema and the value is of its type. -/
def Schema.Admits (schema : Schema) (key : String) (v : Value) : Prop :=
  ∃ field ∈ schema, field.1 = key ∧ field.2 v

@[simp] theorem Schema.not_admits_nil (key : String) (v : Value) :
    ¬ Schema.Admits [] key v := by
  rintro ⟨_, h, _⟩
  exact List.not_mem_nil h

@[simp] theorem Schema.admits_cons (field : String) (type : Value → Prop) (schema : Schema)
    (key : String) (v : Value) :
    Schema.Admits ((field, type) :: schema) key v ↔
      field = key ∧ type v ∨ schema.Admits key v := by
  simp [Schema.Admits]

def KeepsTo (schema : Schema) (entries : Entries) : Prop :=
  ∀ entry ∈ entries, schema.Admits entry.1 entry.2

def IsText (v : Value) : Prop :=
  ∃ text, v = .string text

def IsCharacter (v : Value) : Prop :=
  ∃ c, v = .string (.singleton c)

@[simp] theorem Value.character?_singleton (c : Char) :
    (Value.string (.singleton c)).character? = some c := by
  simp [character?]

@[simp] theorem Decoder.character_singleton (c : Char) :
    Decoder.character (.string (.singleton c)) = .ok c := by
  simp [character]

@[simp] theorem keepsTo_nil (schema : Schema) : KeepsTo schema [] :=
  fun _ h => absurd h List.not_mem_nil

@[simp] theorem keepsTo_cons (schema : Schema) (key : String) (v : Value) (rest : Entries) :
    KeepsTo schema ((key, v) :: rest) ↔ schema.Admits key v ∧ KeepsTo schema rest := by
  simp [KeepsTo]

@[simp] theorem isText_string (text : String) : IsText (.string text) :=
  ⟨text, rfl⟩

/-- In a table of texts every key has a text. -/
theorem isSome_textAt? {schema : Schema} (ht : ∀ field ∈ schema, field.2 = IsText) {key : String}
    {entries : Entries} (h : KeepsTo schema entries) (hk : key ∈ entries.map Prod.fst) :
    (textAt? key entries).isSome = true := by
  refine isSome_lookup? _ _ hk fun v hv => ?_
  obtain ⟨field, hf, _, htext⟩ := h _ hv
  rw [ht field hf] at htext
  obtain ⟨text, rfl⟩ := htext
  rfl

def IsTable (schema : Schema) (v : Value) : Prop :=
  ∃ entries, v = .table entries ∧ KeepsTo schema entries

@[simp] theorem isTable_table (schema : Schema) (entries : Entries) :
    IsTable schema (.table entries) ↔ KeepsTo schema entries := by
  simp [IsTable]

/-- Setting the fields of a record one by one lays the settings over the record. -/
structure Sets {α : Type} (schema : Schema) (set : α → String → Value → Except DecodeError α)
    (overlay : α → Entries → α) : Prop where
  nil (r : α) : overlay r [] = r
  step (r : α) {key : String} {v : Value} (h : schema.Admits key v) :
    ∃ r', set r key v = .ok r' ∧ ∀ rest, overlay r ((key, v) :: rest) = overlay r' rest

theorem Sets.record_table {α : Type} {schema : Schema}
    {set : α → String → Value → Except DecodeError α} {overlay : α → Entries → α}
    (hs : Sets schema set overlay) {entries : Entries} (h : KeepsTo schema entries)
    (name : String) (fields : List String) (default : α) :
    Decoder.record name fields default set (.table entries) = .ok (overlay default entries) := by
  change entries.foldlM (fun r entry => set r entry.1 entry.2) default = _
  induction entries generalizing default with
  | nil => rw [hs.nil]; rfl
  | cons entry rest ih =>
    obtain ⟨key, v⟩ := entry
    have hkey : schema.Admits key v := h (key, v) List.mem_cons_self
    obtain ⟨r, hr, hrest⟩ := hs.step default hkey
    simp only [List.foldlM_cons, hr, hrest]
    exact ih (fun entry he => h entry (List.mem_cons_of_mem _ he)) r

end Graft.Toml
