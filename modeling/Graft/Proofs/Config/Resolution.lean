import Graft.Config.File
import Graft.Proofs.Except
import Graft.Proofs.File.Reading

/-! # Which configuration a project gets

One source decides: the file that is named explicitly, otherwise the project's own file where
there is one, otherwise the built-in configuration.  A source that has been chosen is never left
for another one; whatever is wrong with it is reported as it is, with the origin of the file in
the place of the text's own.
-/
namespace Graft.Config
open File

/-- The same failure of a text that comes from elsewhere. -/
def LoadError.relocated (origin : Origin) (e : LoadError) : LoadError :=
  { e with origin }

/-- What a configuration file comes to: the reason why it gives no text, or what its text loads
as on its own. -/
inductive Loads (v : View) (origin : Origin) (path : String) : Except LoadError Config → Prop
  | unreadable {cause : File.Error} (reading : v.Reads path (.error cause)) :
      Loads v origin path (.error ⟨origin, .unreadable cause⟩)
  | loaded {text : String} {c : Config} (reading : v.Reads path (.ok text))
      (accepted : load .inline text = .ok c) : Loads v origin path (.ok c)
  | refused {text : String} {e : LoadError} (reading : v.Reads path (.ok text))
      (fails : load .inline text = .error e) : Loads v origin path (.error (e.relocated origin))

/-- The path of a project's own configuration file. -/
def projectFile (dir : String) : String :=
  Path.join dir "buildscript-injector.toml"

/-- What the configuration of a project comes to, where a file may be named explicitly. -/
inductive Resolves (v : View) (dir : String) : Option String → Except LoadError Config → Prop
  | explicit {path : String} {result : Except LoadError Config}
      (loads : Loads v (.explicit path) path result) : Resolves v dir (some path) result
  | project {bytes : ByteArray} {result : Except LoadError Config}
      (file : v.LeadsToFile (projectFile dir) bytes)
      (loads : Loads v (.project (projectFile dir)) (projectFile dir) result) :
      Resolves v dir none result
  | builtIn (absent : ∀ bytes, ¬ v.LeadsToFile (projectFile dir) bytes) :
      Resolves v dir none (.ok {})

/-- The origin that a failure names. -/
def chosenOrigin (dir : String) : Option String → Origin
  | some path => .explicit path
  | none => .project (projectFile dir)

variable {v other : View} {origin : Origin} {dir path text : String} {explicit? : Option String}
  {result : Except LoadError Config}

theorem chosenOrigin_ne_inline : chosenOrigin dir explicit? ≠ .inline := by
  cases explicit? <;> simp [chosenOrigin]

/-- The origin of a text takes no part in its reading. -/
theorem load_eq_relocated (origin : Origin) (text : String) :
    load origin text = (load .inline text).mapError (LoadError.relocated origin) := by
  unfold load
  cases ofText text <;> rfl

theorem loadFile_of_readText_ok (h : v.readText path = .ok text) :
    loadFile v origin path = (load .inline text).mapError (LoadError.relocated origin) := by
  rw [loadFile, h, ← load_eq_relocated]

theorem loadFile_of_readText_error {cause : File.Error} (h : v.readText path = .error cause) :
    loadFile v origin path = .error ⟨origin, .unreadable cause⟩ := by
  rw [loadFile, h]

theorem loadFile_eq_iff_loads : loadFile v origin path = result ↔ Loads v origin path result := by
  constructor
  · rintro rfl
    cases hr : v.readText path with
    | error cause =>
      rw [loadFile_of_readText_error hr]
      exact .unreadable (View.readText_eq_iff_reads.mp hr)
    | ok text =>
      have hreads := View.readText_eq_iff_reads.mp hr
      rw [loadFile_of_readText_ok hr]
      cases hl : load .inline text with
      | ok c => exact .loaded hreads hl
      | error e => exact .refused hreads hl
  · intro h
    cases h with
    | unreadable reading =>
      exact loadFile_of_readText_error (View.readText_eq_iff_reads.mpr reading)
    | loaded reading accepted =>
      rw [loadFile_of_readText_ok (View.readText_eq_iff_reads.mpr reading), accepted, mapError_ok]
    | refused reading fails =>
      rw [loadFile_of_readText_ok (View.readText_eq_iff_reads.mpr reading), fails, mapError_error]

theorem Loads.origin_eq {e : LoadError} (h : Loads v origin path (.error e)) :
    e.origin = origin := by
  cases h <;> rfl

/-- A configuration file is all that its own loading depends on. -/
theorem loadFile_congr (h : other.readBytes path = v.readBytes path) :
    loadFile other origin path = loadFile v origin path := by
  unfold loadFile
  rw [View.readText_congr h]

theorem loadForProject_of_file {bytes : ByteArray} (h : v.LeadsToFile (projectFile dir) bytes) :
    loadForProject v dir none =
      loadFile v (.project (projectFile dir)) (projectFile dir) :=
  if_pos (View.isFile_iff.mpr ⟨bytes, h⟩)

theorem loadForProject_of_absent (h : ∀ bytes, ¬ v.LeadsToFile (projectFile dir) bytes) :
    loadForProject v dir none = .ok {} :=
  if_neg (mt View.isFile_iff.mp (not_exists.mpr h))

theorem loadForProject_eq_iff_resolves :
    loadForProject v dir explicit? = result ↔ Resolves v dir explicit? result := by
  constructor
  · rintro rfl
    cases explicit? with
    | some path => exact .explicit (loadFile_eq_iff_loads.mp rfl)
    | none =>
      by_cases hfile : ∃ bytes, v.LeadsToFile (projectFile dir) bytes
      · obtain ⟨bytes, hfile⟩ := hfile
        rw [loadForProject_of_file hfile]
        exact .project hfile (loadFile_eq_iff_loads.mp rfl)
      · rw [loadForProject_of_absent (not_exists.mp hfile)]
        exact .builtIn (not_exists.mp hfile)
  · intro h
    cases h with
    | explicit loads => exact loadFile_eq_iff_loads.mpr loads
    | project file loads =>
      rw [loadForProject_of_file file]
      exact loadFile_eq_iff_loads.mpr loads
    | builtIn absent => exact loadForProject_of_absent absent

theorem Resolves.origin_eq {e : LoadError} (h : Resolves v dir explicit? (.error e)) :
    e.origin = chosenOrigin dir explicit? := by
  cases h with
  | explicit loads => exact loads.origin_eq
  | project _ loads => exact loads.origin_eq

/-- The configuration of a project is that of one source, and a failure names this source and
nothing else.  Whatever else is in the tree, the same file gives the same result. -/
theorem loadForProject_takes_one_source (v : View) (dir : String) (explicit? : Option String) :
    (∀ result, loadForProject v dir explicit? = result ↔ Resolves v dir explicit? result) ∧
      (∀ e, loadForProject v dir explicit? = .error e →
        e.origin = chosenOrigin dir explicit? ∧ e.origin ≠ .inline) ∧
      (∀ path, loadExplicit v path = loadForProject v dir (some path)) ∧
      (∀ path, explicit? = some path → ∀ other elsewhere,
        other.readBytes path = v.readBytes path →
          loadForProject other elsewhere explicit? = loadForProject v dir explicit?) ∧
      ∀ bytes, explicit? = none → v.LeadsToFile (projectFile dir) bytes → ∀ other : View,
        other.LeadsToFile (projectFile dir) bytes →
          loadForProject other dir explicit? = loadForProject v dir explicit? := by
  refine ⟨fun _ => loadForProject_eq_iff_resolves, ?_, fun _ => rfl, ?_, ?_⟩
  · intro e he
    have horigin := (loadForProject_eq_iff_resolves.mp he).origin_eq
    exact ⟨horigin, horigin ▸ chosenOrigin_ne_inline⟩
  · rintro path rfl other elsewhere hbytes
    exact loadFile_congr hbytes
  · rintro bytes rfl hfile other hother
    rw [loadForProject_of_file hfile, loadForProject_of_file hother]
    apply loadFile_congr
    rw [View.readBytes_eq_ok_iff_leadsToFile.mpr hfile,
      View.readBytes_eq_ok_iff_leadsToFile.mpr hother]

section
attribute [local simp] reach View.resolve View.start Path.isIdle Path.isAbsolute maxLinks
  Node.at? Named.get? bind Except.bind pure Except.pure

/-- An empty configuration file beside a project. -/
def beside (project : Node) : View :=
  ⟨.dir [("c.toml", .file "".toUTF8), ("p", project)], []⟩

/-- A project whose own configuration is malformed. -/
def malformedProject : Node :=
  .dir [("buildscript-injector.toml", .file "[target\n".toUTF8)]

theorem readBytes_beside (project : Node) :
    (beside project).readBytes "/c.toml" = .ok "".toUTF8 := by
  have hparts : Path.parts "/c.toml" = ["", "c.toml"] := by decide
  simp [View.readBytes, View.node, beside, hparts]

theorem leadsToFile_malformedProject :
    (beside malformedProject).LeadsToFile (projectFile "/p") "[target\n".toUTF8 := by
  have hparts : Path.parts (projectFile "/p") = ["", "p", "buildscript-injector.toml"] := by
    decide
  have habsolute : (projectFile "/p").toList.head? = some '/' := by decide
  have hne : projectFile "/p" ≠ "" := by decide
  refine ⟨["p", "buildscript-injector.toml"], View.resolve_eq_ok_iff_leads.mp ?_, ?_⟩
  · simp [beside, malformedProject, hparts, habsolute, hne]
  · simp [beside, malformedProject]

end

/-- The file that is named decides alone; left out, the malformed one of the project is not
passed over. -/
theorem loadForProject_takes_one_source_malformed :
    (beside .empty).readBytes "/c.toml" = (beside malformedProject).readBytes "/c.toml" ∧
      loadForProject (beside .empty) "/" (some "/c.toml") =
        loadForProject (beside malformedProject) "/p" (some "/c.toml") ∧
      (beside malformedProject).LeadsToFile (projectFile "/p") "[target\n".toUTF8 ∧
      loadForProject (beside malformedProject) "/p" none =
        .error ⟨.project "/p/buildscript-injector.toml", .malformed⟩ := by
  have hbytes :=
    (readBytes_beside .empty).trans (readBytes_beside malformedProject).symm
  have hfile := leadsToFile_malformedProject
  have hload : load .inline "[target\n" = .error ⟨.inline, .malformed⟩ := by
    have hparse : Toml.parse? "[target\n" = none := by decide +kernel
    simp only [load, ofText, hparse, mapError_error]
  obtain ⟨-, -, -, hexplicit, -⟩ :=
    loadForProject_takes_one_source (beside malformedProject) "/p" (some "/c.toml")
  obtain ⟨hresolves, -⟩ := loadForProject_takes_one_source (beside malformedProject) "/p" none
  exact ⟨hbytes, hexplicit "/c.toml" rfl _ "/" hbytes, hfile,
    (hresolves _).mpr (.project hfile (.refused (.text hfile) hload))⟩

end Graft.Config
