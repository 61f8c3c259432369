import Graft.File.Replacement
import Graft.Proofs.File.View

/-! # Replacing a file that could be read

Where a path leads to a file, its entry can be replaced, and nothing but the entry changes:
the temporary file is gone, and a link's target is as it was.  The path then names the new
file itself.
-/
namespace Graft.File

namespace Node
variable {root : Node} {dir : Location} {entries : List (String × Node)} {old new : String}

/-- A file written under a new name and given the name of another one has been put in that
one's place. -/
theorem rename_put {replaced : Node} (content : ByteArray)
    (hd : root.at? dir = some (.dir entries)) (ho : Named.get? old entries = none)
    (hn : root.at? (dir ++ [new]) = some replaced) (hr : replaced.isDir = false) :
    (root.put (dir ++ [old]) (.file content)).rename dir old new =
      .ok (root.put (dir ++ [new]) (.file content)) := by
  have hne : new ≠ old := by
    rintro rfl
    rw [at?_append_singleton hd, ho] at hn
    cases hn
  have hput := at?_put_append hd [old] (.file content)
  have hnew : (root.put (dir ++ [old]) (.file content)).at? (dir ++ [new]) = some replaced := by
    rw [put_cons, entries_dir, put] at hput
    rw [at?_append_singleton hput, Named.get?_put, if_neg hne, ← at?_append_singleton hd, hn]
  unfold rename
  rw [at?_put_self, hnew, remove_put hd ho]
  cases replaced with
  | dir => simp [isDir] at hr
  | file | link => rfl

end Node

namespace View
variable {v : View} {path : String} {parent location : Location} {name : String}

theorem replaceFile_of_entry {replaced : Node} (content : ByteArray)
    (h : v.entry path = .ok (parent, name))
    (hn : v.root.at? (parent ++ [name]) = some replaced) (hr : replaced.isDir = false) :
    v.replaceFile path content = .ok (v.root.put (parent ++ [name]) (.file content)) := by
  obtain ⟨entries, hd⟩ := Node.isDirAt_iff.mp (entry_eq_ok_iff.mp h).2.2
  have he : v.entriesAt parent = entries := by simp [entriesAt, hd]
  simp only [replaceFile, h, he, bind, Except.bind]
  exact Node.rename_put content hd (Named.get?_unusedName entries) hn hr

/-- A path that leads to a file has an entry, which is a file or leads on to one. -/
theorem exists_entry_of_readBytes {bytes : ByteArray} (h : v.readBytes path = .ok bytes)
    (hl : Path.lastName? path = some name) :
    ∃ parent location, v.entry path = .ok (parent, name) ∧
      Walk v.root maxLinks parent [name] location ∧
        v.root.at? location = some (.file bytes) := by
  obtain ⟨location, hr, hf⟩ := readBytes_eq_ok_iff.mp h
  obtain ⟨parent, he, hlast⟩ := (resolve_eq_ok_iff_leads.mp hr).exists_entry hl
  exact ⟨parent, location, he, hlast, hf⟩

end View

namespace Walk
variable {root : Node} {links : Nat} {parent location : Location} {name : String}

/-- An entry that leads to a file is no directory. -/
theorem exists_entry {bytes : ByteArray} (h : Walk root links parent [name] location)
    (hn : Path.IsName name) (hf : root.at? location = some (.file bytes)) :
    ∃ node, root.at? (parent ++ [name]) = some node ∧ node.isDir = false := by
  cases h with
  | idle _ idle => simp [hn.1] at idle
  | up => exact absurd rfl hn.2
  | @follow _ _ _ _ target _ _ _ link =>
    exact ⟨_, (Node.labelAt?_eq_label_iff (.link target) rfl).mp link, rfl⟩
  | enter _ _ _ walk =>
    cases walk
    exact ⟨_, hf, rfl⟩

/-- A walk that ends in a directory does not pass an entry that leads to a file. -/
theorem not_through_file {bytes : ByteArray} (h : Walk root links parent [name] location)
    (hf : root.at? location = some (.file bytes)) {there : Location}
    (hd : root.IsDirAt there) (more : Nat) (rest : List String) :
    ¬ Walk root more parent (name :: rest) there := by
  intro hw
  have hnot : ¬ root.IsDirAt location := Node.not_isDirAt hf rfl
  rw [← List.singleton_append] at hw
  obtain ⟨between, hfirst, hrest⟩ := hw.split
  obtain rfl := hfirst.unique h
  by_cases hr : rest = []
  · subst hr
    cases hrest
    exact hnot hd
  · exact hnot (hrest.isDirAt_start hr)

end Walk

/-- A tree in which the entry that a path names has been replaced by a file. -/
structure View.Replaced (v : View) (path : String) (content : ByteArray) (parent : Location)
    (name : String) (root : Node) : Prop where
  before : v.entry path = .ok (parent, name)
  after : { v with root }.entry path = .ok (parent, name)
  file : root.at? (parent ++ [name]) = some (.file content)
  others : Node.SameBut (parent ++ [name]) root v.root

namespace View
variable {v : View} {path : String} {parent : Location} {name : String} {content : ByteArray}
  {root : Node}

theorem Replaced.nodeItself (h : v.Replaced path content parent name root) :
    { v with root }.nodeItself path = .ok (.file content) :=
  nodeItself_of_entry h.after h.file

theorem Replaced.readBytes (h : v.Replaced path content parent name root) :
    { v with root }.readBytes path = .ok content := by
  have hr := resolve_of_entry h.after (Node.isRealAt_of_file h.file)
  exact readBytes_eq_ok_iff.mpr ⟨parent ++ [name], hr, h.file⟩

/-- Where a path ends in a name and leads to a file, replacing it does not fail. -/
theorem exists_replaced {bytes : ByteArray} (h : v.readBytes path = .ok bytes)
    (hl : Path.lastName? path = some name) (content : ByteArray) :
    ∃ parent root, v.replaceFile path content = .ok root ∧
      v.Replaced path content parent name root := by
  obtain ⟨parent, location, he, hw, hf⟩ := exists_entry_of_readBytes h hl
  obtain ⟨-, hparent, hd⟩ := entry_eq_ok_iff.mp he
  obtain ⟨replaced, hn, hr⟩ := hw.exists_entry (Path.lastName?_eq_some_iff.mp hl).2 hf
  have hsame := Node.sameBut_put_file content hn hr
  have hnot : ¬ v.root.IsDirAt (parent ++ [name]) := Node.not_isDirAt hn hr
  -- the way to the entry's directory does not lead through the entry
  have hafter : Walk (v.root.put (parent ++ [name]) (.file content)) maxLinks (v.start path)
      (Path.parts path).dropLast parent :=
    hparent.transfer hsame.symm hnot (hw.not_through_file hf hd)
  refine ⟨parent, _, replaceFile_of_entry content he hn hr, he, ?_, Node.at?_put_self .., hsame⟩
  exact entry_eq_ok_iff.mpr ⟨hl, hafter, hd.of_sameBut hsame.symm hnot⟩

end View
end Graft.File
