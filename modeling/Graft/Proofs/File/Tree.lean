import Graft.File.Tree
import Graft.Proofs.Named

/-! # What a change to one location leaves alone

Trees are compared node by node.  What a node holds itself is its label; that of a directory
is the list of the names in it, so two trees with the same labels hold the same nodes at the
same locations.  Putting a file in the place of another one changes a single label.
-/
namespace Graft.File

/-- What a node holds itself. -/
inductive Label
  | file (content : ByteArray)
  | link (target : String)
  | dir (names : List String)

namespace Node

def label : Node → Label
  | file content => .file content
  | link target => .link target
  | dir entries => .dir (entries.map (·.1))

def labelAt? (root : Node) (location : Location) : Option Label :=
  (root.at? location).map label

/-- Two trees hold the same nodes, but for the one at a location. -/
def SameBut (location : Location) (a b : Node) : Prop :=
  ∀ other, other ≠ location → a.labelAt? other = b.labelAt? other

/-- A directory is there. -/
def IsDirAt (root : Node) (location : Location) : Prop :=
  ∃ names, root.labelAt? location = some (.dir names)

/-- A node is there, and it is no link. -/
def IsRealAt (root : Node) (location : Location) : Prop :=
  ∃ label, root.labelAt? location = some label ∧ ∀ target, label ≠ .link target

theorem SameBut.refl (location : Location) (root : Node) : SameBut location root root :=
  fun _ _ => rfl

theorem SameBut.symm {location : Location} {a b : Node} (h : SameBut location a b) :
    SameBut location b a :=
  fun other ho => (h other ho).symm

@[simp] theorem entries_dir (named : List (String × Node)) : (dir named).entries = named := rfl

section at?
variable {root : Node} {location : Location}

@[simp] theorem labelAt?_nil (root : Node) : root.labelAt? [] = some root.label := by
  simp [labelAt?]

theorem labelAt?_cons (root : Node) (name : String) (rest : Location) :
    root.labelAt? (name :: rest) = (Named.get? name root.entries).bind (labelAt? · rest) := by
  simp only [labelAt?, at?_cons]
  cases Named.get? name root.entries <;> rfl

theorem labelAt?_cons_file (content : ByteArray) (name : String) (rest : Location) :
    (file content).labelAt? (name :: rest) = none := by
  simp [labelAt?_cons, entries, Named.get?]

/-- The entry of a directory is the node below it. -/
theorem at?_append_singleton {entries : List (String × Node)}
    (h : root.at? location = some (.dir entries)) (name : String) :
    root.at? (location ++ [name]) = Named.get? name entries := by
  simp only [at?_append, h, Option.bind_some, at?_cons, entries_dir]
  cases Named.get? name entries <;> simp

/-- Above a node there are only directories. -/
theorem isDir_at?_of_append {below : Location} {node : Node}
    (h : root.at? (location ++ below) = some node) (hb : below ≠ []) :
    ∃ entries, root.at? location = some (.dir entries) := by
  rw [at?_append] at h
  obtain ⟨upper, hu, h⟩ := Option.bind_eq_some_iff.mp h
  obtain ⟨name, rest, rfl⟩ := List.exists_cons_of_ne_nil hb
  cases upper with
  | dir entries => exact ⟨entries, hu⟩
  | file | link => simp [at?_cons, entries, Named.get?] at h

/-- A node that is no directory is known by its label. -/
theorem labelAt?_eq_label_iff (leaf : Node) (hl : leaf.isDir = false) :
    root.labelAt? location = some leaf.label ↔ root.at? location = some leaf := by
  have hinj {node : Node} (h : node.label = leaf.label) : node = leaf := by
    cases node <;> cases leaf <;> simp_all [label, isDir]
  rw [labelAt?, Option.map_eq_some_iff]
  exact ⟨fun ⟨node, hn, h⟩ => hinj h ▸ hn, fun h => ⟨leaf, h, rfl⟩⟩

theorem isDirAt_iff :
    root.IsDirAt location ↔ ∃ entries, root.at? location = some (.dir entries) := by
  simp only [IsDirAt, labelAt?]
  cases root.at? location with
  | none => simp
  | some node => cases node <;> simp [label]

theorem isRealAt_iff :
    root.IsRealAt location ↔
      ∃ node, root.at? location = some node ∧ ∀ target, node ≠ .link target := by
  simp only [IsRealAt, labelAt?]
  cases root.at? location with
  | none => simp
  | some node => cases node <;> simp [label]

theorem isRealAt_of_file {content : ByteArray} (h : root.at? location = some (.file content)) :
    root.IsRealAt location :=
  isRealAt_iff.mpr ⟨_, h, fun _ => Node.noConfusion⟩

theorem not_isDirAt {node : Node} (h : root.at? location = some node)
    (hd : node.isDir = false) : ¬ root.IsDirAt location := by
  rw [isDirAt_iff, h]
  rintro ⟨entries, he⟩
  obtain rfl := Option.some.inj he
  simp [isDir] at hd

theorem IsDirAt.isRealAt (h : root.IsDirAt location) : root.IsRealAt location := by
  obtain ⟨names, h⟩ := h
  exact ⟨_, h, fun _ => Label.noConfusion⟩

/-- Above a node that is no link there are directories. -/
theorem IsDirAt.of_append {below : Location} (h : root.IsRealAt (location ++ below))
    (hb : below ≠ []) : root.IsDirAt location := by
  obtain ⟨node, h, -⟩ := isRealAt_iff.mp h
  exact isDirAt_iff.mpr (isDir_at?_of_append h hb)

/-- Above a node that is no link there is none. -/
theorem IsRealAt.of_append {below : Location} (h : root.IsRealAt (location ++ below)) :
    root.IsRealAt location := by
  by_cases hb : below = []
  · simpa [hb] using h
  · exact (IsDirAt.of_append h hb).isRealAt

theorem IsDirAt.above {upper : Location} (h : root.IsDirAt location) (hu : upper <+: location) :
    root.IsDirAt upper := by
  obtain ⟨below, rfl⟩ := hu
  by_cases hb : below = []
  · simpa [hb] using h
  · exact .of_append h.isRealAt hb

theorem IsDirAt.of_sameBut {other : Node} {changed : Location} (h : root.IsDirAt location)
    (hs : SameBut changed root other) (hd : ¬ root.IsDirAt changed) :
    other.IsDirAt location := by
  have hne : location ≠ changed := fun he => hd (he ▸ h)
  obtain ⟨names, h⟩ := h
  exact ⟨names, (hs location hne).symm.trans h⟩

end at?

section put
variable {root : Node}

theorem put_cons (root : Node) (name : String) (rest : Location) (node : Node) :
    root.put (name :: rest) node =
      dir (Named.put name (((Named.get? name root.entries).getD empty).put rest node)
        root.entries) := by
  rw [put]

theorem remove_dir_cons {entries : List (String × Node)} {name : String} {child : Node}
    {rest : Location} (h : Named.get? name entries = some child) (hr : rest ≠ []) :
    (dir entries).remove (name :: rest) =
      dir (Named.put name (child.remove rest) entries) := by
  obtain ⟨next, rest, rfl⟩ := List.exists_cons_of_ne_nil hr
  rw [remove]
  simp only [h]

/-- A file put in the place of a node that is no directory changes that node only. -/
theorem sameBut_put_file {location : Location} {old : Node} (content : ByteArray)
    (h : root.at? location = some old) (hd : old.isDir = false) :
    SameBut location (root.put location (file content)) root := by
  induction location generalizing root with
  | nil =>
    intro other ho
    obtain ⟨name, rest, rfl⟩ := List.exists_cons_of_ne_nil ho
    obtain rfl : root = old := by simpa using h
    rw [put, labelAt?_cons_file]
    cases root <;> simp_all [isDir, labelAt?_cons, entries, Named.get?]
  | cons name rest ih =>
    rw [at?_cons] at h
    obtain ⟨child, hc, hold⟩ := Option.bind_eq_some_iff.mp h
    intro other ho
    rw [put_cons, hc, Option.getD_some]
    cases other with
    | nil =>
      cases root with
      | dir entries => simpa [label] using Named.names_put_of_get? _ hc
      | file | link => simp [entries, Named.get?] at hc
    | cons first others =>
      simp only [labelAt?_cons, entries_dir, Named.get?_put]
      by_cases hf : first = name
      · subst hf
        have hne : others ≠ rest := fun h => ho (h ▸ rfl)
        simpa [hc] using ih hold others hne
      · simp [hf]

/-- What is put below a node is put into that node. -/
theorem at?_put_append {upper : Location} {child : Node} (h : root.at? upper = some child)
    (below : Location) (node : Node) :
    (root.put (upper ++ below) node).at? upper = some (child.put below node) := by
  induction upper generalizing root with
  | nil =>
    obtain rfl : root = child := by simpa using h
    simp
  | cons name rest ih =>
    rw [at?_cons] at h
    obtain ⟨next, hn, hchild⟩ := Option.bind_eq_some_iff.mp h
    rw [List.cons_append, put_cons, hn, Option.getD_some, at?_cons, entries_dir,
      Named.get?_put, if_pos rfl, Option.bind_some, ih hchild]

/-- Taking away what was put under a new name gives the tree back. -/
theorem remove_put {dir : Location} {entries : List (String × Node)} {name : String}
    (hd : root.at? dir = some (.dir entries)) (hn : Named.get? name entries = none)
    (node : Node) : (root.put (dir ++ [name]) node).remove (dir ++ [name]) = root := by
  induction dir generalizing root with
  | nil =>
    obtain rfl : root = .dir entries := by simpa using hd
    simp [put, remove, Named.erase_put, Named.erase_of_get?_eq_none hn]
  | cons first rest ih =>
    rw [at?_cons] at hd
    obtain ⟨child, hc, hdir⟩ := Option.bind_eq_some_iff.mp hd
    cases root with
    | file | link => simp [Node.entries, Named.get?] at hc
    | dir siblings =>
      rw [entries_dir] at hc
      rw [List.cons_append, put_cons, entries_dir, hc, Option.getD_some,
        remove_dir_cons (by rw [Named.get?_put, if_pos rfl]) (by simp), ih hdir,
        Named.put_put, Named.put_of_get? hc]

end put
end Node
end Graft.File
