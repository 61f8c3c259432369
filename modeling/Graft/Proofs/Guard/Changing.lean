import Graft.File.Edit
import Graft.Proofs.Guard

/-! # A guard while the tree changes

The places of the protected directories are taken down when a guard is made, while a path is
resolved when it is checked.  In between, files, directories and links come and go.  What
passes then lies in the project in any case, but a protected directory may have come to a
place that the guard does not know.
-/
namespace Graft
open File

namespace File

/-- Something that is put into a file tree or taken out of it. -/
inductive Change
  | writeFile (path : String) (content : ByteArray)
  | makeDir (path : String)
  | makeLink (path target : String)
  | remove (path : String)

namespace View

/-- The tree as a change leaves it; one that fails leaves it as it is. -/
def change (v : View) (c : Change) : View :=
  let edited := match c with
    | .writeFile path content => v.writeFile path content
    | .makeDir path => v.makeDir path
    | .makeLink path target => v.makeLink path target
    | .remove path => v.removeEntry path
  match edited with
  | .ok root => { v with root }
  | .error _ => v

@[simp] theorem working_change (v : View) (c : Change) : (v.change c).working = v.working := by
  unfold change
  dsimp only
  split <;> rfl

end View

end File

namespace Guard

/-- A change to the tree, or a check of a path by the guard. -/
inductive Event
  | change (c : Change)
  | check (path : String)

/-- A check only reads the tree. -/
def step (v : View) : Event → View
  | .change c => v.change c
  | .check _ => v

/-- The tree after some events. -/
def watch (v : View) (events : List Event) : View :=
  events.foldl step v

@[simp] theorem working_watch (v : View) (events : List Event) :
    (watch v events).working = v.working := by
  induction events generalizing v with
  | nil => rfl
  | cons event events ih =>
    rw [watch, List.foldl_cons, ← watch, ih]
    cases event with
    | change c => exact v.working_change c
    | check path => rfl

variable {home dir path : String} {guard : Guard} {v now : View} {location place : Location}

/-- A protected directory is at this place. -/
def ProtectsAt (home : String) (guard : Guard) (v : View) (place : Location) : Prop :=
  ∃ dir ∈ protectedPaths home guard.root, v.resolve dir = .ok place

/-- The location lies in a directory that was protected in the tree `v`. -/
def Foresees (home : String) (guard : Guard) (v : View) (location : Location) : Prop :=
  ∃ known, guard.ProtectsAt home v known ∧ known <+: location

/-- What passes lies in the project and in no directory that is protected by now. -/
def KeepsPromise (home : String) (guard : Guard) (now : View) : Prop :=
  ∀ path location, guard.check now path = .ok location →
    guard.root <+: location ∧ ∀ place, guard.ProtectsAt home now place → ¬ place <+: location

/-- In any tree, what passes keeps clear of the places that were protected when the guard was
made. -/
theorem check_eq_ok_iff_of_create (h : create v home dir = .ok guard) :
    guard.check now path = .ok location ↔
      now.resolve (Path.join guard.root.path path) = .ok location ∧
        guard.root <+: location ∧ ¬ guard.Foresees home v location := by
  rw [check_eq_ok_iff]
  refine and_congr_right fun _ => and_congr_right fun _ => ?_
  simp only [mem_forbidden_iff h, Foresees, ProtectsAt, not_exists, not_and]

/-- The path of a canonical location in the project passes unless it was protected when the
guard was made. -/
theorem check_path (h : create v home dir = .ok guard) (hc : now.root.Canonical location)
    (hp : guard.root <+: location) (hf : ¬ guard.Foresees home v location) :
    guard.check now location.path = .ok location := by
  refine (check_eq_ok_iff_of_create h).mpr ⟨?_, hp, hf⟩
  rw [Path.join_of_isAbsolute location.isAbsolute_path]
  exact View.resolve_path hc

/-- The promise is kept exactly when each protected directory that has come into the project,
or around it, lies where one lay before. -/
theorem keepsPromise_iff (hw : now.working.Proper) (h : create v home dir = .ok guard) :
    guard.KeepsPromise home now ↔
      (now.root.Canonical guard.root → ∀ place, guard.ProtectsAt home now place →
        (guard.root <+: place → guard.Foresees home v place) ∧
          (place <+: guard.root → guard.Foresees home v guard.root)) := by
  constructor
  · intro hk hroot place hplace
    have hcanonical : now.root.Canonical place := by
      obtain ⟨dir, -, hr⟩ := hplace
      refine View.canonical_of_resolve hr ?_
      unfold View.start
      split
      · exact fun _ hm => absurd hm List.not_mem_nil
      · exact hw
    constructor
    · refine fun hp => Classical.byContradiction fun hf => ?_
      exact (hk _ _ (check_path h hcanonical hp hf)).2 place hplace List.prefix_rfl
    · refine fun hp => Classical.byContradiction fun hf => ?_
      exact (hk _ _ (check_path h hroot List.prefix_rfl hf)).2 place hplace hp
  · intro hknown path location hcheck
    obtain ⟨-, hp, hf⟩ := (check_eq_ok_iff_of_create h).mp hcheck
    refine ⟨hp, fun place hplace hin => hf ?_⟩
    have hroot := (canonical_of_check hcheck).above hp
    obtain ⟨hbelow, habove⟩ := hknown hroot place hplace
    -- the project and the place hold the same location, so one of them holds the other
    rcases List.prefix_or_prefix_of_prefix hp hin with hr | hr
    · obtain ⟨known, hat, hk⟩ := hbelow hr
      exact ⟨known, hat, hk.trans hin⟩
    · obtain ⟨known, hat, hk⟩ := habove hr
      exact ⟨known, hat, hk.trans hp⟩

/-- Whatever happens to the tree, what passes lies in the project and clear of the places that
were protected when the guard was made.  That it also keeps clear of the directories that are
protected by then holds exactly as long as no protected directory comes to a new place in the
project or around it. -/
theorem keepsPromise_watch_iff (hw : v.working.Proper) (h : create v home dir = .ok guard)
    (events : List Event) :
    let now := watch v events
    (∀ path location, guard.check now path = .ok location →
      guard.root <+: location ∧ ¬ guard.Foresees home v location) ∧
    (guard.KeepsPromise home now ↔
      (now.root.Canonical guard.root → ∀ place, guard.ProtectsAt home now place →
        (guard.root <+: place → guard.Foresees home v place) ∧
          (place <+: guard.root → guard.Foresees home v guard.root))) := by
  intro now
  refine ⟨fun path location hcheck => ((check_eq_ok_iff_of_create h).mp hcheck).2, ?_⟩
  refine keepsPromise_iff ?_ h
  rwa [working_watch]

section
attribute [local simp] reach View.resolve View.start Path.isIdle Path.isAbsolute maxLinks Node.at?
  Named.get? bind Except.bind pure Except.pure

theorem protectedPaths_p :
    protectedPaths "/home" ["p"] = ["/home/.gradle", "/p/build", "/p/.gradle"] := by
  decide

theorem parts_protectedPaths :
    Path.parts "/home/.gradle" = ["", "home", ".gradle"] ∧
      Path.parts "/p/build" = ["", "p", "build"] ∧
        Path.parts "/p/.gradle" = ["", "p", ".gradle"] := by
  decide

/-- A project whose build directory is a link to another directory of the project. -/
def linkedBuild : View :=
  ⟨.dir [("p", .dir [("gen", .dir []), ("build", .link "/p/gen")])], []⟩

/-- The link is set again, to a directory below its old target. -/
def relinking : List Event :=
  [.change (.remove "/p/build"), .check "/p/gen", .change (.makeDir "/p/gen/build"),
    .change (.makeLink "/p/build" "/p/gen/build")]

def relinkedBuild : View :=
  ⟨.dir [("p", .dir [("gen", .dir [("build", .dir [])]), ("build", .link "/p/gen/build")])], []⟩

theorem create_linkedBuild : create linkedBuild "/home" "/p" = .ok ⟨["p"], [["p", "gen"]]⟩ := by
  have hp : Path.parts "/p" = ["", "p"] ∧ Path.parts "/p/gen" = ["", "p", "gen"] := by decide
  simp [create, protectedPaths_p, parts_protectedPaths, hp, linkedBuild, Except.toOption]

theorem watch_relinking : watch linkedBuild relinking = relinkedBuild := by
  have hl : Path.lastName? "/p/build" = some "build" := by decide
  have hp : Path.parts "/p/gen/build" = ["", "p", "gen", "build"] := by decide
  simp [watch, relinking, step, View.change, View.removeEntry, View.entry, View.makeDir,
    View.makeLink, View.target, Node.put, Node.remove, Node.entries, Node.empty, Named.put,
    Named.erase, hl, hp, parts_protectedPaths, linkedBuild, relinkedBuild]

theorem protectsAt_relinkedBuild (hr : guard.root = ["p"])
    (h : guard.ProtectsAt "/home" relinkedBuild place) : ["p", "gen", "build"] = place := by
  have hp : Path.parts "/p/gen/build" = ["", "p", "gen", "build"] := by decide
  obtain ⟨dir, hd, h⟩ := h
  rw [hr, protectedPaths_p] at hd
  simp only [List.mem_cons, List.not_mem_nil, or_false] at hd
  rcases hd with rfl | rfl | rfl
  · simp [parts_protectedPaths, relinkedBuild] at h
  · simpa [parts_protectedPaths, hp, relinkedBuild] using h
  · simp [parts_protectedPaths, relinkedBuild] at h

/-- A protected directory moves, but stays within its old place. -/
theorem keepsPromise_watch_relinking :
    linkedBuild.working.Proper ∧
      create linkedBuild "/home" "/p" = .ok ⟨["p"], [["p", "gen"]]⟩ ∧
      watch linkedBuild relinking = relinkedBuild ∧
      KeepsPromise "/home" ⟨["p"], [["p", "gen"]]⟩ relinkedBuild := by
  have hw : linkedBuild.working.Proper := fun _ h => absurd h List.not_mem_nil
  have hknown : ProtectsAt "/home" ⟨["p"], [["p", "gen"]]⟩ linkedBuild ["p", "gen"] :=
    (mem_forbidden_iff create_linkedBuild).mp List.mem_cons_self
  refine ⟨hw, create_linkedBuild, watch_relinking, ?_⟩
  have h := (keepsPromise_watch_iff hw create_linkedBuild relinking).2
  rw [watch_relinking] at h
  refine h.mpr fun _ place hplace => ?_
  obtain rfl := protectsAt_relinkedBuild rfl hplace
  exact ⟨fun _ => ⟨["p", "gen"], hknown, by decide⟩, fun hp => absurd hp (by decide)⟩

/-- A project without a build directory. -/
def noBuild : View :=
  ⟨.dir [("p", .dir [])], []⟩

/-- A build directory that is made after the guard is not known to it. -/
theorem check_passes_newBuild :
    let guard : Guard := ⟨["p"], []⟩
    let now := watch noBuild [.change (.writeFile "/p/build/build.gradle" .empty)]
    create noBuild "/home" "/p" = .ok guard ∧
      guard.check now "/p/build/build.gradle" = .ok ["p", "build", "build.gradle"] ∧
      guard.ProtectsAt "/home" now ["p", "build"] ∧
      ["p", "build"] <+: ["p", "build", "build.gradle"] ∧
      ¬ guard.KeepsPromise "/home" now := by
  intro guard now
  have hp : Path.parts "/p" = ["", "p"] ∧
      Path.parts "/p/build/build.gradle" = ["", "p", "build", "build.gradle"] := by
    decide
  have hnow : now =
      ⟨.dir [("p", .dir [("build", .dir [("build.gradle", .file .empty)])])], []⟩ := by
    simp [now, watch, step, View.change, View.writeFile, View.target, Node.put, Node.entries,
      Node.empty, Named.put, hp, noBuild]
  have hcreate : create noBuild "/home" "/p" = .ok guard := by
    simp [create, protectedPaths_p, parts_protectedPaths, hp, noBuild, guard, Except.toOption]
  have hcheck : guard.check now "/p/build/build.gradle" = .ok ["p", "build", "build.gradle"] := by
    rw [check_eq_ok_iff, hnow, Path.join_of_isAbsolute (by decide)]
    simp [hp, guard]
  have hplace : guard.ProtectsAt "/home" now ["p", "build"] := by
    refine ⟨"/p/build", by decide, ?_⟩
    rw [hnow]
    simp [parts_protectedPaths]
  have hin : ["p", "build"] <+: ["p", "build", "build.gradle"] := by decide
  exact ⟨hcreate, hcheck, hplace, hin, fun h => (h _ _ hcheck).2 _ hplace hin⟩

end

end Guard
end Graft
