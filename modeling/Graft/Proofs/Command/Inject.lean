import Graft.Command.Inject
import Graft.Proofs.Guard
import Graft.Proofs.Script.Saving

/-! # What the inject command changes

A run changes one file or none: the root build script, at the canonical location that the
guard let pass.
-/
namespace Graft

/-- The path of a root script starts where the directory's path starts. -/
theorem Script.isAbsolute_of_findRoot {v : File.View} {dir path : String}
    (h : findRoot v dir = .ok path) (hd : File.Path.isAbsolute dir = true) :
    File.Path.isAbsolute path = true := by
  unfold findRoot at h
  dsimp only at h
  split at h
  · next found hf =>
    obtain rfl := Except.ok.inj h
    obtain ⟨dialect, -, rfl⟩ := List.mem_map.mp (List.mem_of_find?_eq_some hf)
    exact File.Path.isAbsolute_join hd _
  · cases h

namespace Command
open File

variable {e : Environment} {options : InjectOptions} {job : Job}

/-- The place of the script that a run found to change: inside the project and outside every
protected directory, with both taken at their canonical locations. -/
structure Placed (e : Environment) (project : Location) (location : Location) : Prop where
  script : ∃ path, Script.findRoot e.view project.path = .ok path ∧
    e.view.resolve path = .ok location
  inside : ∃ root, e.view.resolve project.path = .ok root ∧ root <+: location ∧
    ∀ dir ∈ Guard.protectedPaths e.home root, ∀ forbidden,
      e.view.resolve dir = .ok forbidden → ¬ forbidden <+: location

theorem Placed.canonical {project location : Location} (h : Placed e project location) :
    e.view.root.Canonical location := by
  obtain ⟨path, hp, hr⟩ := h.script
  exact View.canonical_of_resolve_absolute hr
    (Script.isAbsolute_of_findRoot hp project.isAbsolute_path)

/-- What has been read is the project's configuration and the script at the place the guard
let pass. -/
theorem prepare_spec (h : prepare e options = .ok job) :
    projectDir e.view options.project = .ok job.project ∧
      projectConfig e.view job.project options.config = .ok job.config ∧
        ∃ location, Placed e job.project location ∧
          Script.load fingerprint e.view location.path = .ok job.script := by
  simp only [prepare, bind_eq_ok_iff, mapError_eq_ok_iff] at h
  obtain ⟨project, hproject, config, hconfig, guard, hguard, path, hpath, location, hcheck,
    script, hscript, hjob⟩ := h
  obtain rfl := Except.ok.inj hjob
  obtain ⟨hroot, -⟩ := Guard.create_eq_ok_iff.mp hguard
  obtain ⟨hr, hinside, hforbidden⟩ := Guard.check_eq_ok_iff.mp hcheck
  rw [Path.join_of_isAbsolute
    (Script.isAbsolute_of_findRoot hpath project.isAbsolute_path)] at hr
  refine ⟨hproject, hconfig, location, ⟨⟨path, hpath, hr⟩, guard.root, hroot, hinside, ?_⟩,
    hscript⟩
  intro dir hd forbidden hp
  exact hforbidden forbidden ((Guard.mem_forbidden_iff hguard).mpr ⟨dir, hd, hp⟩)

/-- The project's directory is its own canonical location, provided that the working
directory has a path. -/
theorem resolve_project {project : Location} (hw : e.view.working.Proper)
    (h : projectDir e.view options.project = .ok project) :
    e.view.resolve project.path = .ok project := by
  simp only [projectDir, mapError_eq_ok_iff] at h
  refine View.resolve_path (View.canonical_of_resolve h ?_)
  unfold View.start
  split
  · simp [Location.Proper]
  · exact hw

/-- The build resolves the plugin already. -/
def Resolved (e : Environment) (options : InjectOptions) : Prop :=
  ∃ project config, projectDir e.view options.project = .ok project ∧
    projectConfig e.view project options.config = .ok config ∧
      hasModule options.resolved config.plugin.group config.plugin.name = true

theorem resolved_iff (h : prepare e options = .ok job) :
    Resolved e options ↔
      hasModule options.resolved job.config.plugin.group job.config.plugin.name = true := by
  obtain ⟨hproject, hconfig, -⟩ := prepare_spec h
  constructor
  · rintro ⟨project, config, hp, hc, hm⟩
    obtain rfl := Except.ok.inj (hp.symm.trans hproject)
    obtain rfl := Except.ok.inj (hc.symm.trans hconfig)
    exact hm
  · exact fun hm => ⟨_, _, hproject, hconfig, hm⟩

/-- A tree in which the file at a location holds the text of a run in place of its old one,
and all else is as it was. -/
structure Rewritten (config : Config) (dialect : Dialect) (old : String)
    (location : Location) (before after : Node) : Prop where
  language : Dialect.ofPath location.path = .ok dialect
  read : before.at? location = some (.file old.toUTF8)
  written : after.at? location = some (.file (config.run dialect old).toUTF8)
  others : Node.SameBut location after before
  unchanged : config.run dialect old = old → after = before

/-- Saving the result of a job rewrites the script at its canonical location.  Nothing has
changed since the script was loaded, so saving does not fail. -/
theorem exists_rewritten {location : Location} (hc : e.view.root.Canonical location)
    (hl : Script.load fingerprint e.view location.path = .ok job.script) :
    ∃ saved after, job.script.save fingerprint e.view job.result = .ok (saved, after) ∧
      Rewritten job.config job.script.dialect job.script.content location e.view.root
        after := by
  obtain ⟨hpath, hd, hb, hf⟩ := Script.load_eq_ok_iff.mp hl
  obtain ⟨found, hfound, hfile⟩ := View.readBytes_eq_ok_iff.mp hb
  obtain rfl := Except.ok.inj (hfound.symm.trans (View.resolve_path hc))
  have hsaves := Script.saves_save fingerprint e.view (hpath ▸ hd) job.result
  generalize job.script.save fingerprint e.view job.result = outcome at hsaves ⊢
  cases hsaves with
  | unreadable new cause read => cases (hpath ▸ hb).symm.trans read
  | changed new bytes read differs =>
    obtain rfl := Except.ok.inj ((hpath ▸ hb).symm.trans read)
    exact absurd hf.symm differs
  | unchanged same =>
    have hrun : job.config.run job.script.dialect job.script.content = job.script.content :=
      same
    exact ⟨_, _, rfl, hd, hfile, by rwa [hrun], .refl _ _, fun _ => rfl⟩
  | written new bytes read same parent name root replaced =>
    rw [hpath] at replaced
    obtain rfl := View.eq_of_entry_path hc replaced.before
    exact ⟨_, _, rfl, hd, hfile, replaced.file, replaced.others, fun h => absurd h new⟩

/-- A run fails only while it reads. -/
theorem isSome_failure_iff :
    (inject e options).failure?.isSome = true ↔ ∃ failure, prepare e options = .error failure := by
  cases hp : prepare e options with
  | error failure => simp [inject, hp, Environment.finish]
  | ok job =>
    obtain ⟨-, -, location, hplaced, hload⟩ := prepare_spec hp
    obtain ⟨saved, after, hs, -⟩ := exists_rewritten hplaced.canonical hload
    simp only [inject, hp, perform, hs, Environment.finish]
    split
    · simp
    · split <;> simp

end Command
end Graft
