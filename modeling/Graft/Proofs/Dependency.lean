import Graft.Dependency
import Graft.Proofs.Except
import Graft.Proofs.Text.Blank
import Graft.Proofs.Text.Line
import Mathlib.Data.List.Basic

/-! # Reading and writing dependencies

A written dependency is its parts joined by colons.  Reading trims a text, cuts it at the colons
and takes exactly the cuts into two or three parts none of which is empty.  So it undoes writing,
and writing gives back the text that was read but for the blanks around it.
-/
namespace Graft.Dependency
open Graft.Text

/-- The parts of the notation from left to right. -/
def parts (d : Dependency) : List String :=
  d.group.toList ++ d.name :: d.version.toList

/-- The text is cut at its colons into two or three parts, none of them empty. -/
def IsNotation (text : List Char) : Prop :=
  ((text.splitOn ':').length = 2 ∨ (text.splitOn ':').length = 3) ∧ [] ∉ text.splitOn ':'

/-- A dependency that can be told from its written form. -/
structure Writable (d : Dependency) : Prop where
  group : d.group ≠ none
  parts : ∀ part ∈ d.parts, part ≠ "" ∧ ':' ∉ part.toList

variable {d : Dependency} {input : String} {cuts : List String}

theorem parts_ne_nil (d : Dependency) : d.parts ≠ [] := by
  simp [parts]

theorem length_parts (h : d.group ≠ none) : d.parts.length = 2 ∨ d.parts.length = 3 := by
  obtain ⟨group, name, version⟩ := d
  cases group with
  | none => exact absurd rfl h
  | some group => cases version <;> simp [parts]

theorem toList_render (d : Dependency) :
    d.render.toList = [':'].intercalate (d.parts.map String.toList) := by
  obtain ⟨group, name, version⟩ := d
  cases group <;> cases version <;> simp [render, parts]

/-! ## Reading what a text is cut into -/

theorem exists_cuts (text : List Char) :
    ∃ cuts : List String, text.splitOn ':' = cuts.map String.toList :=
  ⟨(text.splitOn ':').map String.ofList, by simp [Function.comp_def]⟩

/-- The dependency with these parts, if they are two or three. -/
def ofParts? : List String → Option Dependency
  | [group, name] => some ⟨some group, name, none⟩
  | [group, name, version] => some ⟨some group, name, some version⟩
  | _ => none

theorem ofParts?_eq_some_iff : ofParts? cuts = some d ↔ d.group ≠ none ∧ d.parts = cuts := by
  constructor
  · intro h
    unfold ofParts? at h
    split at h
    · cases h
      exact ⟨by simp, rfl⟩
    · cases h
      exact ⟨by simp, rfl⟩
    · cases h
  · rintro ⟨hgroup, rfl⟩
    obtain ⟨group, name, version⟩ := d
    cases group with
    | none => exact absurd rfl hgroup
    | some group => cases version <;> rfl

theorem exists_ofParts?_iff :
    (∃ d, ofParts? cuts = some d) ↔ cuts.length = 2 ∨ cuts.length = 3 := by
  constructor
  · rintro ⟨d, h⟩
    obtain ⟨hgroup, rfl⟩ := ofParts?_eq_some_iff.mp h
    exact length_parts hgroup
  · rintro (h | h)
    · obtain ⟨group, name, rfl⟩ := List.length_eq_two.mp h
      exact ⟨_, rfl⟩
    · obtain ⟨group, name, version, rfl⟩ := List.length_eq_three.mp h
      exact ⟨_, rfl⟩

theorem parse_of_cuts (h : (trimBlanks input.toList).splitOn ':' = cuts.map String.toList) :
    parse input =
      if "" ∈ cuts then .error ⟨input⟩ else (ofParts? cuts).elim (.error ⟨input⟩) .ok := by
  have hempty : (cuts.map String.toList).any List.isEmpty = true ↔ "" ∈ cuts := by
    simp
  have hstrings : (cuts.map String.toList).map String.ofList = cuts := by
    simp [Function.comp_def]
  simp only [parse, h, hempty, hstrings]
  congr 1
  rcases cuts with _ | ⟨_, _ | ⟨_, _ | ⟨_, _ | _⟩⟩⟩ <;> rfl

theorem parse_eq_ok_iff_cuts
    (h : (trimBlanks input.toList).splitOn ':' = cuts.map String.toList) :
    parse input = .ok d ↔ "" ∉ cuts ∧ ofParts? cuts = some d := by
  rw [parse_of_cuts h]
  by_cases hempty : "" ∈ cuts
  · simp [hempty]
  · cases ofParts? cuts <;> simp [hempty]

/-- A text is read as the dependency whose parts it is cut into. -/
theorem parse_eq_ok_iff : parse input = .ok d ↔
    d.group ≠ none ∧ "" ∉ d.parts ∧
      (trimBlanks input.toList).splitOn ':' = d.parts.map String.toList := by
  constructor
  · intro h
    obtain ⟨cuts, hcuts⟩ := exists_cuts (trimBlanks input.toList)
    obtain ⟨hempty, hd⟩ := (parse_eq_ok_iff_cuts hcuts).mp h
    obtain ⟨hgroup, rfl⟩ := ofParts?_eq_some_iff.mp hd
    exact ⟨hgroup, hempty, hcuts⟩
  · rintro ⟨hgroup, hempty, hcuts⟩
    exact (parse_eq_ok_iff_cuts hcuts).mpr ⟨hempty, ofParts?_eq_some_iff.mpr ⟨hgroup, rfl⟩⟩

theorem exists_parse_iff :
    (∃ d, parse input = .ok d) ↔ IsNotation (trimBlanks input.toList) := by
  obtain ⟨cuts, hcuts⟩ := exists_cuts (trimBlanks input.toList)
  have hempty : [] ∈ cuts.map String.toList ↔ "" ∈ cuts := by
    simp
  simp only [parse_eq_ok_iff_cuts hcuts, exists_and_left, exists_ofParts?_iff, IsNotation, hcuts,
    List.length_map, hempty]
  exact And.comm

theorem eq_of_parse_eq_error {e : ParseError} (h : parse input = .error e) : e = ⟨input⟩ := by
  obtain ⟨cuts, hcuts⟩ := exists_cuts (trimBlanks input.toList)
  rw [parse_of_cuts hcuts] at h
  split at h
  · exact (Except.error.inj h).symm
  · cases hd : ofParts? cuts with
    | none => exact (Except.error.inj (hd ▸ h)).symm
    | some d => simp [hd] at h

/-! ## There and back -/

theorem toList_render_of_parse (h : parse input = .ok d) :
    d.render.toList = trimBlanks input.toList := by
  rw [toList_render, ← (parse_eq_ok_iff.mp h).2.2, List.intercalate_splitOn]

theorem writable_of_parse (h : parse input = .ok d) : d.Writable := by
  obtain ⟨hgroup, hempty, hcuts⟩ := parse_eq_ok_iff.mp h
  refine ⟨hgroup, fun part hpart => ⟨fun he => hempty (he ▸ hpart), ?_⟩⟩
  have hcut : part.toList ∈ (trimBlanks input.toList).splitOn ':' := by
    rw [hcuts]
    exact List.mem_map_of_mem hpart
  exact notMem_of_mem_splitOn hcut

/-- Reading undoes writing where no blank is lost. -/
theorem parse_render (h : d.Writable) (ht : Trimmed d.render.toList) :
    parse d.render = .ok d := by
  apply parse_eq_ok_iff.mpr
  rw [ht.trimsTo.trimBlanks_eq, toList_render, List.splitOn_intercalate]
  · exact ⟨h.group, fun hempty => (h.parts "" hempty).1 rfl, rfl⟩
  · intro text htext
    obtain ⟨part, hpart, rfl⟩ := List.mem_map.mp htext
    exact (h.parts part hpart).2
  · simpa using parts_ne_nil d

theorem parse_render_of_parse (h : parse input = .ok d) : parse d.render = .ok d := by
  apply parse_render (writable_of_parse h)
  rw [toList_render_of_parse h]
  exact (trimsTo_trimBlanks input.toList).trimmed

/-- A text is read exactly when it is a notation with blanks around it, and then written as that
notation; the report on any other text carries the text with its blanks.  What can be told from
its written form is read back from it, so reading again what was read and written changes
nothing. -/
theorem parse_inverts_render :
    (∀ input : String, ∃ body : String, TrimsTo input.toList body.toList ∧
      (IsNotation body.toList → ∃ d, parse input = .ok d ∧ d.render = body) ∧
        (¬ IsNotation body.toList → parse input = .error ⟨input⟩)) ∧
      (∀ d : Dependency, d.Writable → Trimmed d.render.toList → parse d.render = .ok d) ∧
        ∀ input : String, (parse input >>= fun d => parse d.render) = parse input := by
  refine ⟨fun input => ⟨trim input, ?_⟩, fun d => parse_render, fun input => ?_⟩
  · rw [trim, String.toList_ofList, ← exists_parse_iff]
    refine ⟨trimsTo_trimBlanks _, fun ⟨d, h⟩ => ⟨d, h, ?_⟩, fun hnone => ?_⟩
    · rw [← toList_render_of_parse h, String.ofList_toList]
    · cases h : parse input with
      | ok d => exact absurd ⟨d, h⟩ hnone
      | error e => rw [eq_of_parse_eq_error h]
  · cases h : parse input with
    | ok d => simp only [bind, Except.bind, parse_render_of_parse h]
    | error e => rfl

/-- Blanks within the notation belong to its parts. -/
theorem parse_inverts_render_blanks :
    let d : Dependency := ⟨some "org. trace", "a gent", some "1 .0"⟩
    d.Writable ∧ Trimmed d.render.toList ∧ parse "org. trace:a gent:1 .0" = .ok d ∧
      parse "\u3000 org. trace:a gent:1 .0\n" = .ok d := by
  intro d
  have hw : d.Writable := ⟨by decide, by decide⟩
  have htrim : trimBlanks d.render.toList = d.render.toList := by decide +kernel
  have ht : Trimmed d.render.toList := by
    rw [← htrim]
    exact (trimsTo_trimBlanks _).trimmed
  have hrender : d.render = "org. trace:a gent:1 .0" := by decide
  have hread : parse d.render = .ok d := parse_inverts_render.2.1 d hw ht
  rw [hrender] at hread
  exact ⟨hw, ht, hread, by decide +kernel⟩

end Graft.Dependency
