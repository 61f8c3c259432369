import Graft.Text.Line

/-! # Cutting a text into lines and joining them

Cutting at the newlines and joining with newlines undo each other.
-/
namespace Graft.Text

theorem lines_ne_nil (text : List Char) : lines text ≠ [] :=
  List.splitOn_ne_nil _ _

theorem intercalate_lines (text : List Char) : ['\n'].intercalate (lines text) = text :=
  List.intercalate_splitOn _

theorem lines_intercalate {pieces : List (List Char)} (hn : ∀ piece ∈ pieces, '\n' ∉ piece)
    (h : pieces ≠ []) : lines (['\n'].intercalate pieces) = pieces :=
  List.splitOn_intercalate _ hn h

theorem notMem_of_mem_splitOn {separator : Char} {text piece : List Char}
    (h : piece ∈ text.splitOn separator) : separator ∉ piece := by
  induction text generalizing piece with
  | nil =>
    obtain rfl : piece = [] := by simpa using h
    simp
  | cons c text ih =>
    obtain ⟨first, rest, hl⟩ := List.exists_cons_of_ne_nil (List.splitOn_ne_nil separator text)
    rw [List.splitOn_cons_eq_if_modifyHead] at h
    rw [hl] at h ih
    split at h
    · rcases List.mem_cons.mp h with rfl | h
      · simp
      · exact ih h
    · next hc =>
      rcases List.mem_cons.mp h with rfl | h
      · have := ih List.mem_cons_self
        rw [beq_iff_eq] at hc
        simp [Ne.symm hc, this]
      · exact ih (List.mem_cons_of_mem first h)

/-- What holds no separator stays whole at the end of the last piece. -/
theorem exists_splitOn_append {separator : Char} {ending : List Char} (h : separator ∉ ending)
    (text : List Char) :
    ∃ pieces piece, (text ++ ending).splitOn separator = pieces ++ [piece ++ ending] := by
  induction text with
  | nil =>
    have hs : ([separator].intercalate [ending]).splitOn separator = [ending] :=
      List.splitOn_intercalate separator (by simpa using h) (by simp)
    exact ⟨[], [], by simpa using hs⟩
  | cons c text ih =>
    obtain ⟨pieces, piece, hs⟩ := ih
    rw [List.cons_append, List.splitOn_cons_eq_if_modifyHead, hs]
    by_cases hc : c == separator
    · exact ⟨[] :: pieces, piece, by simp [hc]⟩
    · cases pieces with
      | nil => exact ⟨[], c :: piece, by simp [hc]⟩
      | cons first rest => exact ⟨(c :: first) :: rest, piece, by simp [hc]⟩

theorem notMem_of_mem_lines {text piece : List Char} (h : piece ∈ lines text) :
    '\n' ∉ piece :=
  notMem_of_mem_splitOn h

end Graft.Text
