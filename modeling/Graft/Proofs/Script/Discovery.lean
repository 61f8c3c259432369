import Graft.Proofs.Except
import Graft.Proofs.File.Components
import Graft.Proofs.File.Names
import Graft.Script.Discovery
import Mathlib.Data.List.Nodup
import Mathlib.Data.String.Basic

/-! # The build scripts that discovery finds

Below a project's directory discovery visits what lies at most eight levels down and in no
directory that is left out.  Of that it takes the regular files with a build script's name, each
of them once, and puts their paths in order.  The name of the project's own directory plays no
part in it.
-/
namespace Graft.Script
open File

def IsScriptName (name : String) : Prop :=
  name = "build.gradle" ∨ name = "build.gradle.kts"

/-- A directory of such a name is not entered. -/
def IsLeftOut (name : String) : Prop :=
  name ∈ ["build", ".gradle", "buildSrc", ".git", ".idea", "node_modules"]

/-- A build script stands below a directory, at most so many levels down. -/
structure StandsBelow (limit : Nat) (dir : Node) (below : Location) : Prop where
  file : ∃ content, dir.at? below = some (.file content)
  named : ∃ name ∈ below.getLast?, IsScriptName name
  depth : 1 ≤ below.length ∧ below.length ≤ limit
  entered : ∀ name ∈ below.dropLast, ¬ IsLeftOut name

variable {name : String} {entries : List (String × Node)} {depth : Nat} {below rest : Location}

theorem isScriptName_iff : isScriptName name = true ↔ IsScriptName name := by
  rw [isScriptName, Bool.or_eq_true, decide_eq_true_iff, decide_eq_true_iff]
  exact Iff.rfl

theorem contains_skippedDirs_iff : skippedDirs.contains name = true ↔ IsLeftOut name :=
  List.contains_iff_mem

/-! ## One level down -/

theorem not_standsBelow_nil {dir : Node} : ¬ StandsBelow depth dir [] :=
  fun h => absurd h.depth.1 (by decide)

theorem standsBelow_cons_file {content : ByteArray}
    (h : Named.get? name entries = some (.file content)) :
    StandsBelow (depth + 1) (.dir entries) (name :: rest) ↔ rest = [] ∧ IsScriptName name := by
  constructor
  · intro hs
    obtain ⟨inner, hfile⟩ := hs.file
    cases rest with
    | nil => simpa using hs.named
    | cons => simp [Node.at?_cons, h, Node.entries, Named.get?] at hfile
  · rintro ⟨rfl, hname⟩
    exact ⟨⟨content, by simp [Node.at?_cons, h]⟩, ⟨name, rfl, hname⟩, by simp, by simp⟩

theorem standsBelow_cons_dir {inner : List (String × Node)}
    (h : Named.get? name entries = some (.dir inner)) :
    StandsBelow (depth + 1) (.dir entries) (name :: rest) ↔
      ¬ IsLeftOut name ∧ StandsBelow depth (.dir inner) rest := by
  have hat : (Node.dir entries).at? (name :: rest) = (Node.dir inner).at? rest := by
    simp [Node.at?_cons, h]
  cases rest with
  | nil =>
    refine iff_of_false (fun hs => ?_) fun hs => not_standsBelow_nil hs.2
    obtain ⟨content, hfile⟩ := hs.file
    simp [hat] at hfile
  | cons next rest =>
    have hlength : (name :: next :: rest).length ≤ depth + 1 ↔ (next :: rest).length ≤ depth := by
      simp
    constructor
    · intro hs
      refine ⟨hs.entered name (by simp), hat ▸ hs.file, by simpa using hs.named,
        ⟨by simp, hlength.mp hs.depth.2⟩, fun other ho => hs.entered other ?_⟩
      rw [List.dropLast_cons_cons]
      exact List.mem_cons_of_mem name ho
    · rintro ⟨hout, hs⟩
      refine ⟨hat ▸ hs.file, by simpa using hs.named, ⟨by simp, hlength.mpr hs.depth.2⟩, ?_⟩
      rw [List.dropLast_cons_cons]
      intro other ho
      rcases List.mem_cons.mp ho with rfl | ho
      · exact hout
      · exact hs.entered other ho

/-- Neither a link nor a missing entry leads on. -/
theorem not_standsBelow_cons (hfile : ∀ content, Named.get? name entries ≠ some (.file content))
    (hdir : ∀ inner, Named.get? name entries ≠ some (.dir inner)) :
    ¬ StandsBelow depth (.dir entries) (name :: rest) := by
  intro hs
  obtain ⟨content, hat⟩ := hs.file
  rw [Node.at?_cons, Node.entries_dir] at hat
  obtain ⟨node, hn, hrest⟩ := Option.bind_eq_some_iff.mp hat
  cases node with
  | file inner => exact hfile inner hn
  | dir inner => exact hdir inner hn
  | link target => cases rest <;> simp [Node.at?_cons, Node.entries, Named.get?] at hrest

/-! ## The walk -/

/-- What the node of a name adds to the scripts of its directory. -/
def found (depth : Nat) (name : String) : Node → List Location
  | .file _ => if isScriptName name then [[name]] else []
  | .link _ => []
  | .dir inner => if skippedDirs.contains name then [] else (among depth inner).map (name :: ·)

theorem among_succ (depth : Nat) (entries : List (String × Node)) :
    among (depth + 1) entries = entries.flatMap fun entry => found depth entry.1 entry.2 := by
  rw [among]
  rfl

theorem mem_found_file {content : ByteArray} :
    below ∈ found depth name (.file content) ↔ IsScriptName name ∧ below = [name] := by
  rw [← isScriptName_iff]
  by_cases h : isScriptName name = true <;> simp [found, h]

theorem mem_found_dir {inner : List (String × Node)} :
    below ∈ found depth name (.dir inner) ↔
      ¬ IsLeftOut name ∧ ∃ rest ∈ among depth inner, name :: rest = below := by
  rw [← contains_skippedDirs_iff]
  by_cases h : skippedDirs.contains name = true <;> simp only [found, h] <;> simp

theorem head?_of_mem_found {node : Node} (h : below ∈ found depth name node) :
    below.head? = some name := by
  cases node with
  | file content =>
    obtain ⟨-, rfl⟩ := mem_found_file.mp h
    rfl
  | link target => simp [found] at h
  | dir inner =>
    obtain ⟨-, rest, -, rfl⟩ := mem_found_dir.mp h
    rfl

theorem cons_mem_among_iff (hn : (entries.map (·.1)).Nodup) :
    name :: rest ∈ among (depth + 1) entries ↔
      ∃ node, Named.get? name entries = some node ∧ name :: rest ∈ found depth name node := by
  rw [among_succ, List.mem_flatMap]
  constructor
  · rintro ⟨⟨other, node⟩, hm, hf⟩
    obtain rfl : name = other := by simpa using head?_of_mem_found hf
    exact ⟨node, (Named.get?_eq_some_iff_mem hn).mpr hm, hf⟩
  · rintro ⟨node, hg, hf⟩
    exact ⟨(name, node), Named.mem_of_get? hg, hf⟩

/-- The walk finds the build scripts that stand below a directory, and nothing else. -/
theorem mem_among_iff (hn : (Node.dir entries).WellNamed) :
    below ∈ among depth entries ↔ StandsBelow depth (.dir entries) below := by
  induction depth generalizing entries below with
  | zero =>
    refine iff_of_false (by simp [among]) fun hs => ?_
    have := hs.depth
    omega
  | succ depth ih =>
    cases below with
    | nil =>
      refine iff_of_false (fun hm => ?_) not_standsBelow_nil
      rw [among_succ, List.mem_flatMap] at hm
      obtain ⟨entry, -, hf⟩ := hm
      simpa using head?_of_mem_found hf
    | cons name rest =>
      obtain ⟨⟨hnodup, -⟩, hbelow⟩ := Node.wellNamed_dir_iff.mp hn
      rw [cons_mem_among_iff hnodup]
      cases hg : Named.get? name entries with
      | none => simp [not_standsBelow_cons, hg]
      | some node =>
        simp only [Option.some.injEq, exists_eq_left']
        cases node with
        | file content =>
          rw [mem_found_file, standsBelow_cons_file hg]
          simp [and_comm]
        | link target =>
          exact iff_of_false (by simp [found]) (not_standsBelow_cons (by simp [hg]) (by simp [hg]))
        | dir inner =>
          rw [mem_found_dir, standsBelow_cons_dir hg, ← ih (hbelow name _ hg)]
          simp

theorem nodup_found {node : Node} (h : ∀ inner, node = .dir inner → (among depth inner).Nodup) :
    (found depth name node).Nodup := by
  cases node with
  | file content =>
    simp only [found]
    split <;> simp
  | link target => exact List.nodup_nil
  | dir inner =>
    simp only [found]
    split
    · exact List.nodup_nil
    · exact (h inner rfl).map (List.cons_injective)

/-- The walk comes to each place once. -/
theorem nodup_among (hn : (Node.dir entries).WellNamed) : (among depth entries).Nodup := by
  induction depth generalizing entries with
  | zero => exact List.nodup_nil
  | succ depth ih =>
    obtain ⟨⟨hnodup, -⟩, hbelow⟩ := Node.wellNamed_dir_iff.mp hn
    rw [among_succ, List.nodup_flatMap]
    constructor
    · rintro ⟨name, node⟩ hm
      apply nodup_found
      rintro inner rfl
      exact ih (hbelow name _ ((Named.get?_eq_some_iff_mem hnodup).mpr hm))
    · rw [List.Nodup, List.pairwise_map] at hnodup
      refine hnodup.imp fun hne => ?_
      intro below ha hb
      have hhead := (head?_of_mem_found ha).symm.trans (head?_of_mem_found hb)
      exact hne (Option.some.inj hhead)

/-! ## The order -/

theorem mem_sorted {locations : List Location} : below ∈ sorted locations ↔ below ∈ locations := by
  rw [sorted, List.mem_mergeSort]

theorem pairwise_sorted {locations : List Location} (h : locations.Nodup) :
    (sorted locations).Pairwise (· < ·) := by
  have hle : (sorted locations).Pairwise fun a b => ¬ b < a := by
    have hsorted : (sorted locations).Pairwise fun a b => (!decide (b < a)) = true :=
      List.pairwise_mergeSort (by simpa using fun _ _ _ => le_trans)
        (by simpa using fun a b => le_total a b) locations
    simpa using hsorted
  have hne : (sorted locations).Nodup := (List.mergeSort_perm locations _).nodup_iff.mpr h
  refine (hle.and hne).imp fun ⟨hnot, hne⟩ => ?_
  exact lt_of_le_of_ne (not_lt.mp hnot) hne

/-! ## The paths -/

section
variable {v : View} {dir : String} {project : Location}

theorem StandsBelow.proper (h : StandsBelow depth (.dir entries) below)
    (hn : (Node.dir entries).WellNamed) : below.Proper := by
  obtain ⟨content, hfile⟩ := h.file
  exact hn.proper hfile

/-- The path of a script that stands below a directory leads to it. -/
theorem StandsBelow.leads (h : StandsBelow depth (.dir entries) below)
    (hn : (Node.dir entries).WellNamed) (hl : v.Leads dir project)
    (hp : v.root.at? project = some (.dir entries)) :
    v.Leads (below.foldl Path.join dir) (project ++ below) := by
  obtain ⟨content, hfile⟩ := h.file
  have hat : v.root.at? (project ++ below) = some (.file content) := by
    rw [Node.at?_append, hp]
    exact hfile
  exact hl.foldl_join (h.proper hn) (Node.isRealAt_of_file hat)

/-- Whether a directory is named itself or through a link, the walk starts in it. -/
theorem locate_of_leads (hl : v.Leads dir project)
    (hp : v.root.at? project = some (.dir entries)) :
    locate v dir = .ok (sorted (among maxDepth entries)) := by
  obtain hitself | ⟨target, hitself⟩ := hl.nodeItself_eq_or_link hp
  · simp only [locate, hitself, mapError_ok, bind, Except.bind]
    rfl
  · have hnode := View.node_eq_ok_iff.mpr ⟨project, hl.resolve_eq, hp⟩
    simp only [locate, hitself, hnode, mapError_ok, bind, Except.bind]
    rfl

theorem discover_of_leads (hl : v.Leads dir project)
    (hp : v.root.at? project = some (.dir entries)) :
    discover v dir =
      .ok ((sorted (among maxDepth entries)).map fun location => location.foldl Path.join dir) := by
  simp only [discover, locate_of_leads hl hp, bind, Except.bind]
  rfl

/-- In a project's directory discovery finds the build scripts that stand at most eight levels
below it, each once and in the order of their paths, and nothing else. -/
theorem discover_finds_scripts (hl : v.Leads dir project)
    (hp : v.root.at? project = some (.dir entries)) (hn : (Node.dir entries).WellNamed) :
    ∃ paths, discover v dir = .ok paths ∧ paths.Pairwise Path.Precedes ∧ paths.Nodup ∧
      ∀ path, path ∈ paths ↔ ∃ below, StandsBelow 8 (.dir entries) below ∧
        path = below.foldl Path.join dir ∧ v.Leads path (project ++ below) := by
  have hstands (below : Location) :
      below ∈ sorted (among maxDepth entries) ↔ StandsBelow 8 (.dir entries) below := by
    rw [mem_sorted, mem_among_iff hn]
    exact Iff.rfl
  have hordered : ((sorted (among maxDepth entries)).map fun location =>
      location.foldl Path.join dir).Pairwise Path.Precedes := by
    rw [List.pairwise_map]
    apply (pairwise_sorted (nodup_among hn)).imp_of_mem
    intro a b ha hb hlt
    exact Path.precedes_foldl_join hl.1 (((hstands a).mp ha).proper hn)
      (((hstands b).mp hb).proper hn) hlt
  refine ⟨_, discover_of_leads hl hp, hordered, hordered.imp Path.Precedes.ne, fun path => ?_⟩
  rw [List.mem_map]
  constructor
  · rintro ⟨below, hm, rfl⟩
    have hbelow := (hstands below).mp hm
    exact ⟨below, hbelow, rfl, hbelow.leads hn hl hp⟩
  · rintro ⟨below, hbelow, rfl, -⟩
    exact ⟨below, (hstands below).mpr hbelow, rfl⟩

end

section
attribute [local simp] reach View.resolve View.start Path.isIdle Path.isAbsolute maxLinks
  Node.at? Named.get?

/-- A project with two build scripts, and a third one among its output. -/
def application : List (String × Node) :=
  [("build.gradle", .file .empty),
    ("app", .dir [("build.gradle.kts", .file .empty),
      ("build", .dir [("build.gradle", .file .empty)])])]

/-- The project in a directory that has the name of one for output, and a link to it. -/
def nearLink : View :=
  ⟨.dir [("build", .dir application), ("q", .link "build")], []⟩

theorem wellNamed_application : (Node.dir application).WellNamed := by
  have hfile : (Node.file .empty).WellNamed := Node.wellNamed_of_isDir_eq_false rfl
  have hone : (Node.empty.put ["build.gradle"] (.file .empty)).WellNamed :=
    Node.wellNamed_empty.put (by decide) hfile
  have htwo : ((Node.empty.put ["build.gradle"] (.file .empty)).put ["app", "build.gradle.kts"]
      (.file .empty)).WellNamed := hone.put (by decide) hfile
  have hlast : Location.Proper ["app", "build", "build.gradle"] := by decide
  exact htwo.put hlast hfile

theorem leads_nearLink : nearLink.Leads "/q" ["build"] := by
  have hparts : Path.parts "/q" = ["", "q"] ∧ Path.parts "build" = ["build"] := by decide
  rw [← View.resolve_eq_ok_iff_leads]
  simp [hparts, nearLink]

theorem resolve_nearLink : nearLink.resolve "/q/app/build/build.gradle" =
    .ok ["build", "app", "build", "build.gradle"] := by
  have hparts : Path.parts "/q/app/build/build.gradle" = ["", "q", "app", "build", "build.gradle"] ∧
      Path.parts "build" = ["build"] := by decide
  simp [hparts, nearLink, application]

/-- The project's own name does not matter, that of its output directory does. -/
theorem discover_finds_scripts_linked :
    nearLink.Leads "/q" ["build"] ∧ nearLink.root.at? ["build"] = some (.dir application) ∧
      (Node.dir application).WellNamed ∧
      ∃ paths, discover nearLink "/q" = .ok paths ∧ "/q/build.gradle" ∈ paths ∧
        "/q/app/build.gradle.kts" ∈ paths ∧ "/q/app/build/build.gradle" ∉ paths := by
  have hp : nearLink.root.at? ["build"] = some (.dir application) := rfl
  have hn := wellNamed_application
  obtain ⟨paths, hpaths, -, -, hmem⟩ := discover_finds_scripts leads_nearLink hp hn
  have hroot : StandsBelow 8 (.dir application) ["build.gradle"] :=
    ⟨⟨.empty, rfl⟩, ⟨_, rfl, .inl rfl⟩, by decide, by simp⟩
  have happ : StandsBelow 8 (.dir application) ["app", "build.gradle.kts"] :=
    ⟨⟨.empty, rfl⟩, ⟨_, rfl, .inr rfl⟩, by decide, by simp [IsLeftOut]⟩
  have hout : "/q/app/build/build.gradle" ∉ paths := by
    intro hin
    obtain ⟨below, hbelow, -, hleads⟩ := (hmem _).mp hin
    obtain rfl : ["app", "build", "build.gradle"] = below := by
      simpa using resolve_nearLink.symm.trans hleads.resolve_eq
    exact hbelow.entered "build" (by decide) (by simp [IsLeftOut])
  refine ⟨leads_nearLink, hp, hn, paths, hpaths, (hmem _).mpr ?_, (hmem _).mpr ?_, hout⟩
  · have hpath : ["build.gradle"].foldl Path.join "/q" = "/q/build.gradle" := by decide
    exact ⟨_, hroot, hpath.symm, hpath ▸ hroot.leads hn leads_nearLink hp⟩
  · have hpath : ["app", "build.gradle.kts"].foldl Path.join "/q" = "/q/app/build.gradle.kts" := by
      decide
    exact ⟨_, happ, hpath.symm, hpath ▸ happ.leads hn leads_nearLink hp⟩

end

end Graft.Script
