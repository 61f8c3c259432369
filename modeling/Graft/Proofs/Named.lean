import Graft.Named

/-! # Laws of named lists

What a put or an erase leaves of the names and of the whole list, and that the unused name is
unused.
-/
namespace Graft.Named

variable {α : Type}

theorem put_put (name : String) (first value : α) (entries : List (String × α)) :
    put name value (put name first entries) = put name value entries := by
  induction entries with
  | nil => simp [put]
  | cons entry rest ih =>
    obtain ⟨key, old⟩ := entry
    by_cases h : key = name <;> simp [put, h, ih]

theorem put_of_get? {name : String} {value : α} {entries : List (String × α)}
    (h : get? name entries = some value) : put name value entries = entries := by
  induction entries with
  | nil => simp [get?] at h
  | cons entry rest ih =>
    obtain ⟨key, old⟩ := entry
    by_cases hk : key = name
    · simpa [put, get?, hk, eq_comm] using h
    · simpa [put, get?, hk] using ih (by simpa [get?, hk] using h)

/-- Putting a value under a name that is there leaves the names as they are. -/
theorem names_put_of_get? {name : String} {old : α} (value : α) {entries : List (String × α)}
    (h : get? name entries = some old) :
    (put name value entries).map (·.1) = entries.map (·.1) := by
  induction entries with
  | nil => simp [get?] at h
  | cons entry rest ih =>
    obtain ⟨key, _⟩ := entry
    by_cases hk : key = name
    · simp [put, hk]
    · simpa [put, hk] using ih (by simpa [get?, hk] using h)

theorem get?_eq_none_iff {name : String} {entries : List (String × α)} :
    get? name entries = none ↔ name ∉ entries.map (·.1) := by
  induction entries with
  | nil => simp [get?]
  | cons entry rest ih =>
    obtain ⟨key, _⟩ := entry
    by_cases hk : key = name
    · simp [get?, hk]
    · simp only [get?, hk, if_false, ih, List.map_cons, List.mem_cons, not_or]
      exact ⟨fun h => ⟨Ne.symm hk, h⟩, And.right⟩

theorem erase_of_get?_eq_none {name : String} {entries : List (String × α)}
    (h : get? name entries = none) : erase name entries = entries := by
  induction entries with
  | nil => rfl
  | cons entry rest ih =>
    obtain ⟨key, _⟩ := entry
    by_cases hk : key = name
    · simp [get?, hk] at h
    · simpa [erase, hk] using ih (by simpa [get?, hk] using h)

theorem erase_put (name : String) (value : α) (entries : List (String × α)) :
    erase name (put name value entries) = erase name entries := by
  induction entries with
  | nil => simp [put, erase]
  | cons entry rest ih =>
    obtain ⟨key, _⟩ := entry
    by_cases hk : key = name <;> simp [put, erase, hk, ih]

theorem length_lt_unusedName {name : String} {value : α} {entries : List (String × α)}
    (h : (name, value) ∈ entries) : name.length < (unusedName entries).length := by
  have hs : name.toList.Sublist (entries.flatMap (·.1.toList)) := by
    rw [List.flatMap_def]
    exact List.sublist_flatten_of_mem (List.mem_map_of_mem h)
  have ht : ".tmp".length = 4 := by decide
  have hle := hs.length_le
  rw [unusedName, String.length_append, ht, String.length_ofList]
  rw [String.length_toList] at hle
  omega

theorem get?_unusedName (entries : List (String × α)) :
    get? (unusedName entries) entries = none := by
  refine get?_eq_none_iff.mpr fun h => ?_
  obtain ⟨⟨name, value⟩, hm, rfl⟩ := List.mem_map.mp h
  exact Nat.lt_irrefl _ (length_lt_unusedName hm)

theorem mem_of_get? {name : String} {value : α} {entries : List (String × α)}
    (h : get? name entries = some value) : (name, value) ∈ entries := by
  induction entries with
  | nil => simp [get?] at h
  | cons entry rest ih =>
    obtain ⟨key, old⟩ := entry
    by_cases hk : key = name
    · obtain rfl : old = value := by simpa [get?, hk] using h
      simp [hk]
    · exact List.mem_cons_of_mem _ (ih (by simpa [get?, hk] using h))

/-- Where names are distinct, a look-up finds every entry. -/
theorem get?_eq_some_iff_mem {name : String} {value : α} {entries : List (String × α)}
    (hn : (entries.map (·.1)).Nodup) :
    get? name entries = some value ↔ (name, value) ∈ entries := by
  constructor
  · exact mem_of_get?
  · intro h
    induction entries with
    | nil => simp at h
    | cons entry rest ih =>
      obtain ⟨key, old⟩ := entry
      obtain ⟨hfirst, hrest⟩ := List.nodup_cons.mp hn
      rcases List.mem_cons.mp h with h | h
      · obtain ⟨rfl, rfl⟩ := Prod.mk.inj h
        simp [get?]
      · have hk : key ≠ name := by
          rintro rfl
          exact hfirst (List.mem_map.mpr ⟨_, h, rfl⟩)
        simpa [get?, hk] using ih hrest h

theorem names_put (name : String) (value : α) (entries : List (String × α)) :
    (put name value entries).map (·.1) =
      if name ∈ entries.map (·.1) then entries.map (·.1) else entries.map (·.1) ++ [name] := by
  induction entries with
  | nil => simp [put]
  | cons entry rest ih =>
    obtain ⟨key, old⟩ := entry
    by_cases hk : key = name
    · simp [put, hk]
    · simp only [put, hk, if_false, List.map_cons, ih, List.mem_cons, Ne.symm hk, false_or]
      split <;> simp

end Graft.Named
