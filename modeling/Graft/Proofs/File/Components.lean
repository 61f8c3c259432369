import Graft.Proofs.File.View
import Mathlib.Data.List.Lex

/-! # Paths component by component

Paths are compared by what stands between their slashes.  Joining a name to a path adds one
component, so paths joined to one directory are in the order of the locations below it, and
they lead to the nodes there.
-/
namespace Graft.File
namespace Path

/-- What a path is made of. -/
inductive Component
  | root | here | up
  | name (text : String)
deriving DecidableEq, Repr

namespace Component

def ofPart (part : String) : Component :=
  if part = ".." then .up else .name part

def rank : Component → Nat
  | root => 0
  | here => 1
  | up => 2
  | name _ => 3

/-- Names come after all else, one name after another in the order of texts. -/
inductive Before : Component → Component → Prop
  | rank {a b : Component} (lower : a.rank < b.rank) : Before a b
  | name {a b : String} (lower : a < b) : Before (.name a) (.name b)

theorem Before.ne {a b : Component} (h : Before a b) : a ≠ b := by
  rintro rfl
  cases h with
  | rank lower => exact Nat.lt_irrefl _ lower
  | name lower => exact String.lt_irrefl _ lower

end Component

/-- Empty parts and dots count for nothing, but for a dot that a relative path starts with. -/
def components (path : String) : List Component :=
  (if isAbsolute path then [.root]
    else if (parts path).head? = some "." then [.here] else []) ++
    ((parts path).filter fun part => !isIdle part).map Component.ofPart

/-- The order of paths. -/
def Precedes (a b : String) : Prop :=
  List.Lex Component.Before (components a) (components b)

theorem Precedes.ne {a b : String} (h : Precedes a b) : a ≠ b := by
  rintro rfl
  exact List.Lex.to_ne (List.Lex.imp (fun _ _ => Component.Before.ne) _ _ h) rfl

section
variable {dir name : String}

/-! ## Joining names -/

theorem parts_of_notMem (hs : '/' ∉ name.toList) : parts name = [name] := by
  have hsplit : (['/'].intercalate [name.toList]).splitOn '/' = [name.toList] :=
    List.splitOn_intercalate '/' (by simpa using hs) (by simp)
  have hjoin : ['/'].intercalate [name.toList] = name.toList := by simp
  rw [hjoin] at hsplit
  simp [parts, hsplit]

theorem parts_append_slash (dir name : String) :
    parts (dir ++ "/" ++ name) = parts dir ++ parts name := by
  simp [parts, List.splitOn_append_cons_self]

theorem isAbsolute_of_notMem (hs : '/' ∉ name.toList) : isAbsolute name = false := by
  rw [isAbsolute, decide_eq_false_iff_not]
  exact fun h => hs (List.mem_of_head? h)

/-- A name is joined behind a slash, which the directory's path may end in already. -/
theorem exists_join_eq (hd : dir ≠ "") (hs : '/' ∉ name.toList) :
    ∃ stem, join dir name = stem ++ "/" ++ name ∧ (dir = stem ∨ dir = stem ++ "/") := by
  have hcond : ¬ (isAbsolute name || dir.isEmpty) = true := by
    simp [isAbsolute_of_notMem hs, hd]
  unfold join
  rw [if_neg hcond]
  split
  · next hlast =>
    obtain ⟨front, hf⟩ := List.getLast?_eq_some_iff.mp hlast
    have hdir : dir = String.ofList front ++ "/" := by
      rw [← String.toList_inj]
      simp [hf]
    exact ⟨.ofList front, by rw [← hdir], .inr hdir⟩
  · exact ⟨dir, rfl, .inl rfl⟩

/-- Joining a name makes it the last part, in the place of an empty one. -/
theorem exists_parts_join (hd : dir ≠ "") (hs : '/' ∉ name.toList) :
    ∃ dirs, dirs ≠ [] ∧ parts (join dir name) = dirs ++ [name] ∧
      (parts dir = dirs ∨ parts dir = dirs ++ [""]) := by
  obtain ⟨stem, hjoin, hstem⟩ := exists_join_eq hd hs
  refine ⟨parts stem, parts_ne_nil stem, ?_, ?_⟩
  · rw [hjoin, parts_append_slash, parts_of_notMem hs]
  · rcases hstem with rfl | rfl
    · exact .inl rfl
    · right
      have hslash := parts_append_slash stem ""
      rwa [String.append_empty] at hslash

theorem isAbsolute_join_of_notMem (hd : dir ≠ "") (hs : '/' ∉ name.toList) :
    isAbsolute (join dir name) = isAbsolute dir := by
  obtain ⟨stem, hjoin, hstem⟩ := exists_join_eq hd hs
  rw [hjoin]
  rcases hstem with rfl | rfl
  · obtain ⟨c, rest, hc⟩ := List.exists_cons_of_ne_nil (mt String.toList_eq_nil_iff.mp hd)
    simp [isAbsolute, hc]
  · simp [isAbsolute, List.head?_append]

theorem join_ne_empty (hd : dir ≠ "") (hs : '/' ∉ name.toList) : join dir name ≠ "" := by
  obtain ⟨stem, hjoin, -⟩ := exists_join_eq hd hs
  simp [hjoin]

/-- A joined name is one more component. -/
theorem components_join (hd : dir ≠ "") (hn : IsName name) (hs : '/' ∉ name.toList) :
    components (join dir name) = components dir ++ [.name name] := by
  obtain ⟨dirs, hne, hjoin, hdir⟩ := exists_parts_join hd hs
  have hpart : Component.ofPart name = .name name := if_neg hn.2
  have hhead : (dirs ++ [name]).head? = (parts dir).head? := by
    obtain ⟨first, rest, rfl⟩ := List.exists_cons_of_ne_nil hne
    rcases hdir with hdir | hdir <;> simp [hdir]
  have hfilter : (parts dir).filter (fun part => !isIdle part) =
      dirs.filter fun part => !isIdle part := by
    rcases hdir with hdir | hdir <;> simp [hdir, isIdle]
  simp only [components, isAbsolute_join_of_notMem hd hs, hjoin, hhead, hfilter,
    List.filter_append, List.map_append, List.append_assoc]
  simp [hn.1, hpart]

end

section
variable {dir : String} {a b : Location}

theorem components_foldl_join (hd : dir ≠ "") (ha : a.Proper) :
    components (a.foldl join dir) = components dir ++ a.map .name := by
  induction a generalizing dir with
  | nil => simp
  | cons name rest ih =>
    obtain ⟨⟨hname, hs⟩, hrest⟩ := Location.proper_cons.mp ha
    rw [List.foldl_cons, ih (join_ne_empty hd hs) hrest, components_join hd hname hs]
    simp

theorem lex_map_name (h : List.Lex (· < ·) a b) :
    List.Lex Component.Before (a.map .name) (b.map .name) := by
  induction h with
  | nil => exact .nil
  | cons _ ih => exact .cons ih
  | rel h => exact .rel (.name h)

/-- Paths joined to one directory are in the order of their locations. -/
theorem precedes_foldl_join (hd : dir ≠ "") (ha : a.Proper) (hb : b.Proper) (h : a < b) :
    Precedes (a.foldl join dir) (b.foldl join dir) := by
  rw [Precedes, components_foldl_join hd ha, components_foldl_join hd hb]
  apply List.Lex.append_left
  exact lex_map_name h

end
end Path

namespace View.Leads
variable {v : View} {dir name : String} {here below : Location}

/-- Behind a path to a directory, a name leads to the node in it. -/
theorem join (h : v.Leads dir here) (hn : Path.IsName name) (hs : '/' ∉ name.toList)
    (hr : v.root.IsRealAt (here ++ [name])) : v.Leads (Path.join dir name) (here ++ [name]) := by
  obtain ⟨hne, hw⟩ := h
  obtain ⟨dirs, -, hjoin, hdir⟩ := Path.exists_parts_join hne hs
  have hstart : v.start (Path.join dir name) = v.start dir := by
    simp only [start, Path.isAbsolute_join_of_notMem hne hs]
  have hdirs : Walk v.root maxLinks (v.start dir) dirs here := by
    rcases hdir with hdir | hdir
    · rwa [hdir] at hw
    · rw [hdir] at hw
      obtain ⟨between, hfirst, hlast⟩ := hw.split
      rwa [hlast.eq_of_isIdle rfl]
  have hd : v.root.IsDirAt here := .of_append hr (by simp)
  refine ⟨Path.join_ne_empty hne hs, ?_⟩
  rw [hstart, hjoin]
  exact hdirs.append (.enter hd hn hr (.done 0 _))

theorem foldl_join (h : v.Leads dir here) (hb : below.Proper)
    (hr : v.root.IsRealAt (here ++ below)) :
    v.Leads (below.foldl Path.join dir) (here ++ below) := by
  induction below generalizing dir here with
  | nil => simpa using h
  | cons name rest ih =>
    obtain ⟨⟨hname, hs⟩, hrest⟩ := Location.proper_cons.mp hb
    rw [List.append_cons] at hr ⊢
    exact ih (h.join hname hs hr.of_append) hrest hr

end View.Leads
end Graft.File
