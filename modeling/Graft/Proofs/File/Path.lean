import Graft.File.Path
import Graft.Proofs.Text.Line

/-! # Reading paths

The path of a location is read back as the names of the location, provided that these can
stand between slashes.
-/
namespace Graft.File

namespace Path

/-- A part that leads to an entry of a directory. -/
def IsName (part : String) : Prop :=
  isIdle part = false ∧ part ≠ ".."

instance (part : String) : Decidable (IsName part) :=
  inferInstanceAs (Decidable (_ ∧ _))

theorem parts_ne_nil (path : String) : parts path ≠ [] := by
  simp [parts, List.splitOn_ne_nil]

theorem slash_notMem_of_mem_parts {path part : String} (h : part ∈ parts path) :
    '/' ∉ part.toList := by
  obtain ⟨piece, hp, rfl⟩ := List.mem_map.mp h
  simpa using Text.notMem_of_mem_splitOn hp

theorem lastName?_eq_some_iff {path name : String} :
    lastName? path = some name ↔ (∃ dirs, parts path = dirs ++ [name]) ∧ IsName name := by
  simp [lastName?, Option.filter_eq_some_iff, List.getLast?_eq_some_iff, IsName]

theorem isAbsolute_append {path : String} (h : isAbsolute path = true) (rest : String) :
    isAbsolute (path ++ rest) = true := by
  simp only [isAbsolute, decide_eq_true_eq, String.toList_append] at h ⊢
  rw [List.head?_append, h, Option.some_or]

theorem isAbsolute_join {dir : String} (h : isAbsolute dir = true) (path : String) :
    isAbsolute (join dir path) = true := by
  have hd : dir.isEmpty = false := by
    rw [Bool.eq_false_iff]
    intro he
    simp [String.isEmpty_iff.mp he, isAbsolute] at h
  unfold join
  by_cases hp : isAbsolute path = true
  · simp [hp]
  · rw [if_neg (by simp [hp, hd])]
    split
    · exact isAbsolute_append h path
    · exact isAbsolute_append (isAbsolute_append h "/") path

theorem join_of_isAbsolute {path : String} (h : isAbsolute path = true) (dir : String) :
    join dir path = path := by
  simp [join, h]

end Path

namespace Location

/-- Each of the names can stand between the slashes of a path. -/
def Proper (location : Location) : Prop :=
  ∀ name ∈ location, Path.IsName name ∧ '/' ∉ name.toList

instance (location : Location) : Decidable location.Proper :=
  inferInstanceAs (Decidable (∀ name ∈ location, _ ∧ _))

theorem proper_cons {name : String} {rest : Location} :
    Proper (name :: rest) ↔ (Path.IsName name ∧ '/' ∉ name.toList) ∧ rest.Proper :=
  List.forall_mem_cons

theorem isAbsolute_path (location : Location) : Path.isAbsolute location.path = true :=
  Path.isAbsolute_append (by decide) _

theorem path_ne_empty (location : Location) : location.path ≠ "" := by
  intro h
  simpa [h, Path.isAbsolute] using isAbsolute_path location

theorem parts_path {location : Location} (hp : location.Proper) (hn : location ≠ []) :
    Path.parts location.path = "" :: location := by
  have hs : ∀ name ∈ location.map String.toList, '/' ∉ name := by
    intro name h
    obtain ⟨text, ht, rfl⟩ := List.mem_map.mp h
    exact (hp text ht).2
  have ht : location.path.toList = '/' :: ['/'].intercalate (location.map String.toList) := by
    simp [path, String.toList_intercalate]
  rw [Path.parts, ht, List.splitOn_cons_eq_if_modifyHead, if_pos (by decide),
    List.splitOn_intercalate _ hs (by simpa using hn)]
  simp

theorem Proper.dropLast {location : Location} (h : location.Proper) :
    Proper location.dropLast :=
  fun name hn => h name (List.dropLast_subset _ hn)

theorem Proper.append_singleton {location : Location} (h : location.Proper) {name : String}
    (hn : Path.IsName name) (hs : '/' ∉ name.toList) : Proper (location ++ [name]) := by
  intro other ho
  rcases List.mem_append.mp ho with ho | ho
  · exact h other ho
  · obtain rfl := List.mem_singleton.mp ho
    exact ⟨hn, hs⟩

end Location
end Graft.File
