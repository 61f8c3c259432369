import Graft.Proofs.Except
import Graft.Proofs.File.Walk

/-! # What paths name

The operations of a view in terms of walks, and canonical locations: their own paths lead
back to them.
-/
namespace Graft.File

/-- A location that a path resolves to. -/
structure Node.Canonical (root : Node) (location : Location) : Prop where
  proper : location.Proper
  real : root.IsRealAt location
  base : root.IsDirAt []

/-- Above a canonical location there are canonical locations. -/
theorem Node.Canonical.above {root : Node} {upper location : Location}
    (h : root.Canonical location) (hu : upper <+: location) : root.Canonical upper := by
  obtain ⟨below, rfl⟩ := hu
  exact ⟨fun name hn => h.proper name (List.mem_append_left below hn), h.real.of_append, h.base⟩

namespace View

/-- Reading a path part by part and following the links on the way ends at a location. -/
def Leads (v : View) (path : String) (location : Location) : Prop :=
  path ≠ "" ∧ Walk v.root maxLinks (v.start path) (Path.parts path) location

variable {v : View} {path : String} {location parent other : Location} {name : String}

theorem resolve_eq_ok_iff :
    v.resolve path = .ok location ↔
      path ≠ "" ∧ Walk v.root maxLinks (v.start path) (Path.parts path) location := by
  unfold resolve
  by_cases he : path = ""
  · simp [he]
  · simp only [String.isEmpty_iff, he, if_false, ne_eq, not_false_eq_true, true_and]
    constructor
    · intro h
      split at h
      · cases h
      · next hr => exact .of_reach (hr.trans (by simpa using h))
      · cases h
    · intro h
      rw [h.reach_eq]

theorem resolve_eq_ok_iff_leads : v.resolve path = .ok location ↔ v.Leads path location :=
  resolve_eq_ok_iff

theorem toOption_resolve_eq_some_iff :
    (v.resolve path).toOption = some location ↔ v.Leads path location := by
  rw [← resolve_eq_ok_iff_leads]
  cases v.resolve path <;> simp [Except.toOption]

namespace Leads

theorem resolve_eq (h : v.Leads path location) : v.resolve path = .ok location :=
  resolve_eq_ok_iff_leads.mpr h

theorem unique (h : v.Leads path location) (h' : v.Leads path other) : location = other :=
  h.2.unique h'.2

/-- No path leads to a link. -/
theorem isRealAt (h : v.Leads path location) : v.root.IsRealAt location :=
  h.2.isRealAt (h.2.isDirAt_start (Path.parts_ne_nil path)).isRealAt

end Leads

theorem node_eq_ok_iff {found : Node} :
    v.node path = .ok found ↔
      ∃ location, v.resolve path = .ok location ∧ v.root.at? location = some found := by
  rw [View.node, bind_eq_ok_iff]
  refine exists_congr fun location => and_congr_right fun _ => ?_
  cases v.root.at? location <;> simp [pure, Except.pure]

theorem readBytes_eq_ok_iff {bytes : ByteArray} :
    v.readBytes path = .ok bytes ↔
      ∃ location, v.resolve path = .ok location ∧
        v.root.at? location = some (.file bytes) := by
  rw [← node_eq_ok_iff, readBytes, bind_eq_ok_iff]
  constructor
  · rintro ⟨found, hn, h⟩
    cases found with
    | file content => exact Except.ok.inj h ▸ hn
    | dir | link => cases h
  · exact fun h => ⟨_, h, rfl⟩

theorem exists_file_of_readBytes {bytes : ByteArray} (h : v.readBytes path = .ok bytes) :
    ∃ location, v.root.at? location = some (.file bytes) := by
  obtain ⟨location, -, hf⟩ := readBytes_eq_ok_iff.mp h
  exact ⟨location, hf⟩

theorem entry_eq_ok_iff :
    v.entry path = .ok (parent, name) ↔
      Path.lastName? path = some name ∧
        Walk v.root maxLinks (v.start path) (Path.parts path).dropLast parent ∧
          v.root.IsDirAt parent := by
  unfold entry
  cases hn : Path.lastName? path with
  | none => simp
  | some last =>
    simp only [Option.some.injEq]
    constructor
    · intro h
      split at h
      · cases h
      · cases h
      · next hr =>
        split at h
        · next hd =>
          obtain ⟨rfl, rfl⟩ := Prod.mk.inj (Except.ok.inj h)
          exact ⟨rfl, .of_reach hr, Node.isDirAt_iff.mpr ⟨_, hd⟩⟩
        · cases h
    · rintro ⟨rfl, hw, hd⟩
      obtain ⟨entries, hd⟩ := Node.isDirAt_iff.mp hd
      simp [hw.reach_eq, hd, pure, Except.pure]

theorem nodeItself_of_entry (h : v.entry path = .ok (parent, name)) {node : Node}
    (hn : v.root.at? (parent ++ [name]) = some node) : v.nodeItself path = .ok node := by
  obtain ⟨hl, -⟩ := entry_eq_ok_iff.mp h
  simp [nodeItself, hl, h, hn, bind, Except.bind, pure, Except.pure]

/-- A path that leads to a node and ends in a name has an entry, and that leads to the node. -/
theorem Leads.exists_entry (h : v.Leads path location) (hl : Path.lastName? path = some name) :
    ∃ parent, v.entry path = .ok (parent, name) ∧
      Walk v.root maxLinks parent [name] location := by
  obtain ⟨-, hw⟩ := h
  obtain ⟨⟨dirs, hp⟩, -⟩ := Path.lastName?_eq_some_iff.mp hl
  rw [hp] at hw
  obtain ⟨parent, hparent, hlast⟩ := hw.split
  have hd : v.root.IsDirAt parent := hlast.isDirAt_start (by simp)
  refine ⟨parent, entry_eq_ok_iff.mpr ⟨hl, ?_, hd⟩, hlast⟩
  rwa [hp, List.dropLast_concat]

/-- What a path names itself is what it leads to, or a link. -/
theorem Leads.nodeItself_eq_or_link {node : Node} (h : v.Leads path location)
    (hn : v.root.at? location = some node) :
    v.nodeItself path = .ok node ∨ ∃ target, v.nodeItself path = .ok (.link target) := by
  cases hl : Path.lastName? path with
  | none =>
    left
    simpa [nodeItself, hl] using node_eq_ok_iff.mpr ⟨location, h.resolve_eq, hn⟩
  | some name =>
    obtain ⟨parent, he, hlast⟩ := h.exists_entry hl
    have hname := (Path.lastName?_eq_some_iff.mp hl).2
    cases hlast with
    | idle _ idle => simp [hname.1] at idle
    | up => exact absurd rfl hname.2
    | @follow _ _ _ _ target _ _ _ link =>
      have hlink := (Node.labelAt?_eq_label_iff (.link target) rfl).mp link
      exact .inr ⟨target, nodeItself_of_entry he hlink⟩
    | enter _ _ _ walk =>
      cases walk
      exact .inl (nodeItself_of_entry he hn)

/-- The node of an entry that is no link is what its path leads to. -/
theorem resolve_of_entry (h : v.entry path = .ok (parent, name))
    (hr : v.root.IsRealAt (parent ++ [name])) : v.resolve path = .ok (parent ++ [name]) := by
  obtain ⟨hl, hw, hd⟩ := entry_eq_ok_iff.mp h
  obtain ⟨⟨dirs, hp⟩, hname⟩ := Path.lastName?_eq_some_iff.mp hl
  rw [hp, List.dropLast_concat] at hw
  refine resolve_eq_ok_iff.mpr ⟨?_, hp ▸ hw.append (.enter hd hname hr (.done 0 _))⟩
  rintro rfl
  have hm : name ∈ Path.parts "" := hp ▸ List.mem_append_right dirs List.mem_cons_self
  obtain rfl : name = "" := by simpa [Path.parts] using hm
  exact absurd hname (by decide)

/-- What a path resolves to is canonical, wherever it starts from a proper location. -/
theorem canonical_of_resolve (h : v.resolve path = .ok location) (hs : (v.start path).Proper) :
    v.root.Canonical location := by
  obtain ⟨-, hw⟩ := resolve_eq_ok_iff.mp h
  have hd := hw.isDirAt_start (Path.parts_ne_nil path)
  exact ⟨hw.proper hs fun _ => Path.slash_notMem_of_mem_parts, hw.isRealAt hd.isRealAt,
    hd.above List.nil_prefix⟩

theorem start_of_isAbsolute (h : Path.isAbsolute path = true) : v.start path = [] := by
  simp [start, h]

theorem canonical_of_resolve_absolute (h : v.resolve path = .ok location)
    (ha : Path.isAbsolute path = true) : v.root.Canonical location :=
  canonical_of_resolve h (by simp [start_of_isAbsolute ha, Location.Proper])

/-- A canonical location is what its own path resolves to. -/
theorem resolve_path (h : v.root.Canonical location) : v.resolve location.path = .ok location := by
  rw [resolve_eq_ok_iff, start_of_isAbsolute location.isAbsolute_path]
  refine ⟨location.path_ne_empty, ?_⟩
  by_cases hn : location = []
  · subst hn
    have hp : Path.parts (Location.path []) = ["", ""] := by decide
    rw [hp]
    exact .idle h.base (by decide) (.idle h.base (by decide) (.done _ []))
  · rw [Location.parts_path h.proper hn]
    have hw : Walk v.root 0 [] location location :=
      .straight (fun name hm => (h.proper name hm).1) h.real
    exact .idle h.base (by decide) (hw.mono (Nat.zero_le _))

/-- The entry that the path of a canonical location names is the one at the location. -/
theorem entry_path (h : v.root.Canonical (parent ++ [name])) :
    v.entry (Location.path (parent ++ [name])) = .ok (parent, name) := by
  have hd : v.root.IsDirAt parent := .of_append h.real (by simp)
  have hn := h.proper name (by simp)
  have hp : Path.parts (Location.path (parent ++ [name])) = "" :: (parent ++ [name]) :=
    Location.parts_path h.proper (by simp)
  have hw : Walk v.root 0 [] parent parent :=
    .straight (fun other hm => (h.proper other (by simp [hm])).1) hd.isRealAt
  rw [entry_eq_ok_iff, start_of_isAbsolute (Location.isAbsolute_path _), hp,
    ← List.cons_append, List.dropLast_concat, Path.lastName?_eq_some_iff]
  exact ⟨⟨⟨"" :: parent, hp⟩, hn.1⟩, .idle h.base (by decide) (hw.mono (Nat.zero_le _)), hd⟩

theorem eq_of_entry_path (hc : v.root.Canonical location)
    (h : v.entry location.path = .ok (parent, name)) : location = parent ++ [name] := by
  obtain rfl | ⟨upper, last, rfl⟩ := List.eq_nil_or_concat location
  · have hn : Path.lastName? (Location.path []) = none := by decide
    simpa [hn] using (entry_eq_ok_iff.mp h).1
  · rw [List.concat_eq_append] at hc h ⊢
    have he := entry_path hc
    rw [h] at he
    obtain ⟨rfl, rfl⟩ := Prod.mk.inj (Except.ok.inj he)
    rfl

end View
end Graft.File
