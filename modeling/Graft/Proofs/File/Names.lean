import Graft.Proofs.File.Path
import Graft.Proofs.File.Tree

/-! # The names in a tree

A file system holds each name once in a directory, and only names that can stand between the
slashes of a path.  Trees that are put together from such names are well named, and in a
well-named tree every location of a node is proper.
-/
namespace Graft.File.Node

/-- In every directory the names are distinct, and each can stand in a path. -/
def WellNamed (root : Node) : Prop :=
  ∀ location entries, root.at? location = some (.dir entries) →
    (entries.map (·.1)).Nodup ∧ Location.Proper (entries.map (·.1))

variable {root node : Node} {location : Location}

theorem WellNamed.below (h : root.WellNamed) (hn : root.at? location = some node) :
    node.WellNamed := by
  intro rest entries he
  apply h (location ++ rest)
  rw [at?_append, hn]
  exact he

theorem wellNamed_dir_iff {entries : List (String × Node)} :
    (dir entries).WellNamed ↔
      ((entries.map (·.1)).Nodup ∧ Location.Proper (entries.map (·.1))) ∧
        ∀ name node, Named.get? name entries = some node → node.WellNamed := by
  constructor
  · intro h
    refine ⟨h [] entries (by simp), fun name node hn => ?_⟩
    have hat : (dir entries).at? [name] = some node := by simp [at?_cons, hn]
    exact h.below hat
  · rintro ⟨hnames, hbelow⟩ location inner hi
    cases location with
    | nil =>
      obtain rfl : entries = inner := by simpa using hi
      exact hnames
    | cons name rest =>
      rw [at?_cons] at hi
      obtain ⟨node, hn, hi⟩ := Option.bind_eq_some_iff.mp hi
      exact hbelow name node hn rest inner hi

theorem wellNamed_of_isDir_eq_false (h : node.isDir = false) : node.WellNamed := by
  intro location entries he
  cases location with
  | nil =>
    obtain rfl : node = .dir entries := by simpa using he
    simp [isDir] at h
  | cons name rest => cases node <;> simp_all [isDir, at?_cons, Node.entries, Named.get?]

theorem wellNamed_empty : empty.WellNamed :=
  wellNamed_dir_iff.mpr ⟨⟨by simp, by simp [Location.Proper]⟩, by simp [Named.get?]⟩

/-- In a well-named tree nodes are at proper locations. -/
theorem WellNamed.proper (h : root.WellNamed) (hn : root.at? location = some node) :
    location.Proper := by
  induction location generalizing root with
  | nil => exact fun name hm => absurd hm List.not_mem_nil
  | cons name rest ih =>
    rw [at?_cons] at hn
    obtain ⟨child, hc, hrest⟩ := Option.bind_eq_some_iff.mp hn
    cases root with
    | file | link => simp [Node.entries, Named.get?] at hc
    | dir entries =>
      obtain ⟨⟨-, hproper⟩, hbelow⟩ := wellNamed_dir_iff.mp h
      have hname := hproper name (List.mem_map_of_mem (Named.mem_of_get? hc))
      exact Location.proper_cons.mpr ⟨hname, ih (hbelow name child hc) hrest⟩

/-- Putting a well-named node at a proper location keeps a tree well named. -/
theorem WellNamed.put (h : root.WellNamed) (hl : location.Proper) (hn : node.WellNamed) :
    (root.put location node).WellNamed := by
  induction location generalizing root with
  | nil => simpa [Node.put] using hn
  | cons name rest ih =>
    have hentries : (dir root.entries).WellNamed := by
      cases root with
      | dir entries => exact h
      | file | link => exact wellNamed_empty
    obtain ⟨⟨hnodup, hproper⟩, hbelow⟩ := wellNamed_dir_iff.mp hentries
    have hchild : ((Named.get? name root.entries).getD empty).WellNamed := by
      cases hc : Named.get? name root.entries with
      | none => exact wellNamed_empty
      | some child => exact hbelow name child hc
    obtain ⟨⟨hname, hs⟩, hrest⟩ := Location.proper_cons.mp hl
    rw [put_cons]
    apply wellNamed_dir_iff.mpr
    refine ⟨?_, fun other inner ho => ?_⟩
    · rw [Named.names_put]
      split
      · exact ⟨hnodup, hproper⟩
      · next hnew =>
        have hdistinct : ∀ other ∈ root.entries.map (·.1), ∀ last ∈ [name], other ≠ last := by
          rintro other ho last hlast rfl
          obtain rfl := List.mem_singleton.mp hlast
          exact hnew ho
        exact ⟨List.nodup_append.mpr ⟨hnodup, by simp, hdistinct⟩,
          hproper.append_singleton hname hs⟩
    · rw [Named.get?_put] at ho
      split at ho
      · obtain rfl := Option.some.inj ho
        exact ih hchild hrest
      · exact hbelow other inner ho

end Graft.File.Node
