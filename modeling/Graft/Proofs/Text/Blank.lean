import Graft.Text.Blank
import Mathlib.Data.List.TakeWhile

/-! # What trimming leaves

Trimming a text leaves the one part of it that has blanks only around it and none at its own
ends.
-/
namespace Graft.Text

/-- Neither end of the text is blank. -/
structure Trimmed (text : List Char) : Prop where
  head : ∀ c ∈ text.head?, isBlank c = false
  last : ∀ c ∈ text.getLast?, isBlank c = false

/-- The text is the body with blanks around it. -/
structure TrimsTo (text body : List Char) : Prop where
  surrounded : ∃ lead trail, text = lead ++ (body ++ trail) ∧
    (∀ c ∈ lead, isBlank c = true) ∧ ∀ c ∈ trail, isBlank c = true
  trimmed : Trimmed body

variable {text body : List Char}

theorem Trimmed.trimsTo (h : Trimmed text) : TrimsTo text text :=
  ⟨⟨[], [], by simp⟩, h⟩

theorem dropWhile_isBlank (h : ∀ c ∈ text.head?, isBlank c = false) :
    text.dropWhile isBlank = text := by
  cases text with
  | nil => rfl
  | cons c rest => simp [h c rfl]

theorem isBlank_head_dropWhile : ∀ c ∈ (text.dropWhile isBlank).head?, isBlank c = false := by
  intro c hc
  have h := List.head?_dropWhile_not isBlank text
  rwa [Option.mem_def.mp hc] at h

theorem TrimsTo.trimBlanks_eq (h : TrimsTo text body) : trimBlanks text = body := by
  obtain ⟨⟨lead, trail, rfl, hlead, htrail⟩, hbody⟩ := h
  rw [trimBlanks, List.dropWhile_append_of_pos hlead]
  cases body with
  | nil =>
    have hnil : trail.dropWhile isBlank = [] := List.dropWhile_eq_nil_iff.mpr htrail
    rw [List.nil_append, hnil]
    rfl
  | cons c body =>
    have hfront : (c :: body ++ trail).dropWhile isBlank = c :: body ++ trail :=
      dropWhile_isBlank hbody.head
    have hback : (c :: body).reverse.dropWhile isBlank = (c :: body).reverse := by
      apply dropWhile_isBlank
      rw [List.head?_reverse]
      exact hbody.last
    have htrail' : ∀ c ∈ trail.reverse, isBlank c = true := by simpa using htrail
    rw [hfront, List.reverse_append, List.dropWhile_append_of_pos htrail', hback,
      List.reverse_reverse]

theorem trimsTo_trimBlanks (text : List Char) : TrimsTo text (trimBlanks text) := by
  -- the blanks in front go first, then those at the end of what is left
  generalize hfront : text.dropWhile isBlank = front
  have hlead : text = text.takeWhile isBlank ++ front := by
    rw [← hfront, List.takeWhile_append_dropWhile]
  have htrail : front = trimBlanks text ++ (front.reverse.takeWhile isBlank).reverse := by
    rw [trimBlanks, hfront, ← List.reverse_append, List.takeWhile_append_dropWhile,
      List.reverse_reverse]
  constructor
  · refine ⟨text.takeWhile isBlank, (front.reverse.takeWhile isBlank).reverse, ?_, ?_, ?_⟩
    · rw [← htrail]
      exact hlead
    · exact fun c hc => List.mem_takeWhile_imp hc
    · intro c hc
      exact List.mem_takeWhile_imp (List.mem_reverse.mp hc)
  constructor
  · intro c hc
    have hin : c ∈ front.head? := by
      rw [htrail, List.head?_append, Option.mem_def.mp hc]
      rfl
    rw [← hfront] at hin
    exact isBlank_head_dropWhile c hin
  · intro c hc
    rw [trimBlanks, hfront, List.getLast?_reverse] at hc
    exact isBlank_head_dropWhile c hc

/-- Blanks in front are all that is trimmed from a text that has none at its other ends. -/
theorem trimBlanks_append {lead body : List Char} (hl : ∀ c ∈ lead, isBlank c = true)
    (hh : ∀ c ∈ body.head?, isBlank c = false) (ht : ∀ c ∈ body.getLast?, isBlank c = false) :
    trimBlanks (lead ++ body) = body :=
  TrimsTo.trimBlanks_eq ⟨⟨lead, [], by simpa using hl⟩, hh, ht⟩

end Graft.Text
