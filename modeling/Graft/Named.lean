/-! # Lists of named values

Values under names, in the order in which the names first came.  A look-up finds what was put
under a name last (`get?_put`) and nothing under an erased one (`get?_erase`).
-/
namespace Graft.Named

variable {α : Type}

def get? (name : String) : List (String × α) → Option α
  | [] => none
  | (other, value) :: rest => if other = name then some value else get? name rest

/-- Puts a value in the place of the one under the same name, or at the end. -/
def put (name : String) (value : α) : List (String × α) → List (String × α)
  | [] => [(name, value)]
  | (other, old) :: rest =>
    if other = name then (other, value) :: rest else (other, old) :: put name value rest

def erase (name : String) : List (String × α) → List (String × α)
  | [] => []
  | (other, value) :: rest =>
    if other = name then erase name rest else (other, value) :: erase name rest

/-- A name that is longer than those of all entries. -/
def unusedName (entries : List (String × α)) : String :=
  ".tmp" ++ .ofList (entries.flatMap (·.1.toList))

theorem get?_put (name other : String) (value : α) (entries : List (String × α)) :
    get? other (put name value entries) =
      if other = name then some value else get? other entries := by
  induction entries with
  | nil => simp [put, get?, eq_comm]
  | cons entry rest ih =>
    obtain ⟨key, old⟩ := entry
    by_cases hk : key = name
    · subst hk
      by_cases h : other = key <;> simp [put, get?, h, eq_comm]
    · by_cases h : other = name
      · subst h
        simp [put, get?, hk, ih]
      · simp [put, get?, hk, ih, h]

theorem get?_erase (name other : String) (entries : List (String × α)) :
    get? other (erase name entries) = if other = name then none else get? other entries := by
  induction entries with
  | nil => simp [erase, get?]
  | cons entry rest ih =>
    obtain ⟨key, old⟩ := entry
    by_cases hk : key = name
    · subst hk
      by_cases h : other = key
      · subst h
        simpa [erase] using ih
      · simp [erase, get?, h, ih, Ne.symm h]
    · by_cases h : other = name
      · subst h
        simp [erase, get?, hk, ih]
      · simp [erase, get?, hk, ih, h]

end Graft.Named
