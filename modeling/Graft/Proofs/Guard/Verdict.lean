import Graft.Proofs.Guard

/-! # What the guard says of a path

In a tree that stays as it is the verdict on a path depends on the place that the path leads
to and on the places that the protected paths lead to, and on nothing else.  The path of a
place that has passed leads back to it, so it passes again.
-/
namespace Graft
open File

namespace Guard
variable {v : View} {home dir path : String} {root location place : Location} {guard : Guard}
  {result : Except Error Location}

/-- One of the paths leads to a place at or above the location. -/
def Covers (v : View) (paths : List String) (location : Location) : Prop :=
  ∃ path ∈ paths, ∃ place, v.Leads path place ∧ place <+: location

/-- The place is the one that the first of the paths to cover the location leads to. -/
def CoversFirst (v : View) (paths : List String) (location place : Location) : Prop :=
  ∃ before path after, paths = before ++ path :: after ∧ v.Leads path place ∧
    place <+: location ∧ ¬ Covers v before location

/-- What is to be said of a path in the project at `root`. -/
inductive Verdict (v : View) (home : String) (root : Location) (path : String) :
    Except Error Location → Prop
  | unresolved {cause : File.Error}
      (nowhere : ∀ location, ¬ v.Leads (Path.join root.path path) location)
      (fails : v.resolve (Path.join root.path path) = .error cause) :
      Verdict v home root path (.error (.unresolved cause))
  | outsideProject {location : Location} (leads : v.Leads (Path.join root.path path) location)
      (outside : ¬ root <+: location) :
      Verdict v home root path (.error (.outsideProject location root))
  | inForbidden {location place : Location} (leads : v.Leads (Path.join root.path path) location)
      (inside : root <+: location)
      (covered : CoversFirst v (protectedPaths home root) location place) :
      Verdict v home root path (.error (.inForbidden location place))
  | passes {location : Location} (leads : v.Leads (Path.join root.path path) location)
      (inside : root <+: location) (clear : ¬ Covers v (protectedPaths home root) location) :
      Verdict v home root path (.ok location)

theorem any_resolve_iff :
    (v.resolve path).toOption.any (·.isPrefixOf location) = true ↔
      ∃ place, v.Leads path place ∧ place <+: location := by
  simp [Option.any_eq_true, View.toOption_resolve_eq_some_iff]

theorem find?_forbidden_eq_none_iff {paths : List String} :
    (paths.filterMap fun path => (v.resolve path).toOption).find? (·.isPrefixOf location) =
      none ↔ ¬ Covers v paths location := by
  rw [List.find?_eq_none]
  simp only [List.mem_filterMap, View.toOption_resolve_eq_some_iff, List.isPrefixOf_iff_prefix]
  constructor
  · rintro h ⟨path, hm, place, hl, hp⟩
    exact h place ⟨path, hm, hl⟩ hp
  · rintro h place ⟨path, hm, hl⟩ hp
    exact h ⟨path, hm, place, hl, hp⟩

/-- The place that is found among the known ones is that of the first path to cover. -/
theorem find?_forbidden_eq_some_iff {paths : List String} :
    (paths.filterMap fun path => (v.resolve path).toOption).find? (·.isPrefixOf location) =
      some place ↔ CoversFirst v paths location place := by
  simp only [List.find?_filterMap, Option.bind_eq_some_iff, List.find?_eq_some_iff_append,
    Bool.not_eq_true', ← Bool.not_eq_true, any_resolve_iff, View.toOption_resolve_eq_some_iff]
  constructor
  · rintro ⟨path, ⟨⟨other, ho, hp⟩, before, after, hpaths, hbefore⟩, hl⟩
    obtain rfl := ho.unique hl
    exact ⟨before, path, after, hpaths, hl, hp, fun ⟨path, hm, hc⟩ => hbefore path hm hc⟩
  · rintro ⟨before, path, after, hpaths, hl, hp, hbefore⟩
    exact ⟨path, ⟨⟨place, hl, hp⟩, before, after, hpaths, fun path hm hc => hbefore ⟨path, hm, hc⟩⟩,
      hl⟩

/-- A check of a path that resolves judges the location alone. -/
theorem check_of_resolve (h : v.resolve (Path.join guard.root.path path) = .ok location) :
    guard.check v path =
      if guard.root <+: location then
        match guard.forbidden.find? (·.isPrefixOf location) with
        | some place => .error (.inForbidden location place)
        | none => .ok location
      else .error (.outsideProject location guard.root) := by
  by_cases hp : guard.root <+: location
  · have hb := List.isPrefixOf_iff_prefix.mpr hp
    simp only [check, h, hb, hp, if_true, mapError_ok, bind, Except.bind, Bool.not_true]
    cases guard.forbidden.find? (·.isPrefixOf location) <;> rfl
  · have hb : guard.root.isPrefixOf location = false := by
      rwa [← Bool.not_eq_true, List.isPrefixOf_iff_prefix]
    simp only [check, h, hb, hp, if_false, mapError_ok, bind, Except.bind]
    rfl

theorem check_of_resolve_error {cause : File.Error}
    (h : v.resolve (Path.join guard.root.path path) = .error cause) :
    guard.check v path = .error (.unresolved cause) := by
  simp only [check, h, mapError_error, bind, Except.bind]

/-- The guard gives the verdict on a path, whatever it is. -/
theorem check_eq_iff_verdict (h : create v home dir = .ok guard) :
    guard.check v path = result ↔ Verdict v home guard.root path result := by
  have hforbidden := (create_eq_ok_iff.mp h).2
  constructor
  · rintro rfl
    cases hr : v.resolve (Path.join guard.root.path path) with
    | error cause =>
      rw [check_of_resolve_error hr]
      refine .unresolved (fun location hl => ?_) hr
      rw [hl.resolve_eq] at hr
      cases hr
    | ok location =>
      have hl := View.resolve_eq_ok_iff_leads.mp hr
      rw [check_of_resolve hr, hforbidden]
      split
      case isFalse hout => exact .outsideProject hl hout
      case isTrue hin =>
        split
        case h_1 place hf => exact .inForbidden hl hin (find?_forbidden_eq_some_iff.mp hf)
        case h_2 hf => exact .passes hl hin (find?_forbidden_eq_none_iff.mp hf)
  · rintro (⟨-, hfails⟩ | ⟨hl, hout⟩ | ⟨hl, hin, hc⟩ | ⟨hl, hin, hc⟩)
    · exact check_of_resolve_error hfails
    · rw [check_of_resolve hl.resolve_eq, if_neg hout]
    · rw [check_of_resolve hl.resolve_eq, if_pos hin, hforbidden,
        find?_forbidden_eq_some_iff.mpr hc]
    · rw [check_of_resolve hl.resolve_eq, if_pos hin, hforbidden,
        find?_forbidden_eq_none_iff.mpr hc]

theorem create_of_leads (h : v.Leads dir root) (home : String) :
    ∃ guard, create v home dir = .ok guard ∧ guard.root = root :=
  ⟨⟨root, (protectedPaths home root).filterMap fun path => (v.resolve path).toOption⟩,
    create_eq_ok_iff.mpr ⟨h.resolve_eq, rfl⟩, rfl⟩

/-- For a project that exists there is a guard.  It passes exactly the paths that lead to a
place in the project and at or below no protected one, and says of every other path which
of the reasons comes first.  What it passes is the canonical location of a node, whose own
path it passes as well. -/
theorem create_gives_verdicts (h : v.Leads dir root) (home : String) :
    ∃ guard, create v home dir = .ok guard ∧
      (∀ path result, guard.check v path = result ↔ Verdict v home root path result) ∧
      ∀ path location, guard.check v path = .ok location →
        v.root.Canonical location ∧ guard.check v location.path = .ok location := by
  obtain ⟨guard, hcreate, rfl⟩ := create_of_leads h home
  exact ⟨guard, hcreate, fun path result => check_eq_iff_verdict hcreate,
    fun path location hcheck => ⟨canonical_of_check hcheck, check_again hcheck⟩⟩

section
attribute [local simp] reach View.resolve View.start Path.isIdle Path.isAbsolute maxLinks Node.at?
  Named.get?

/-- A project that a link leads to, with links in it: one that stays, one that leads out, and
in the user's home one that leads in. -/
def links : View :=
  ⟨.dir [("home", .dir [(".gradle", .link "/p/cache")]), ("q", .link "p"), ("out", .dir []),
    ("p", .dir [("app", .dir []), ("cache", .dir []), ("lib", .link "./app"),
      ("build", .link "../out")])], []⟩

/-- A link in the project is passed with the directory that it leads to. -/
theorem create_gives_verdicts_links :
    links.Leads "/q" ["p"] ∧ ∃ guard, create links "/home" "/q" = .ok guard ∧
      guard.check links "lib" = .ok ["p", "app"] ∧
      guard.check links "/p/app" = .ok ["p", "app"] := by
  have hparts : Path.parts "/q" = ["", "q"] ∧ Path.parts "p" = ["p"] ∧
      Path.parts "/p/lib" = ["", "p", "lib"] ∧ Path.parts "./app" = [".", "app"] ∧
      Path.parts "/home/.gradle" = ["", "home", ".gradle"] ∧
      Path.parts "/p/cache" = ["", "p", "cache"] ∧ Path.parts "/p/build" = ["", "p", "build"] ∧
      Path.parts "../out" = ["..", "out"] ∧ Path.parts "/p/.gradle" = ["", "p", ".gradle"] := by
    decide
  have hq : links.Leads "/q" ["p"] := by
    rw [← View.resolve_eq_ok_iff_leads]
    simp [hparts, links]
  have hlib : links.Leads (Path.join (Location.path ["p"]) "lib") ["p", "app"] := by
    have hj : Path.join (Location.path ["p"]) "lib" = "/p/lib" := by decide
    rw [← View.resolve_eq_ok_iff_leads, hj]
    simp [hparts, links]
  have hclear : ¬ Covers links (protectedPaths "/home" ["p"]) ["p", "app"] := by
    have hpaths : protectedPaths "/home" ["p"] = ["/home/.gradle", "/p/build", "/p/.gradle"] := by
      decide
    rintro ⟨path, hm, place, hl, hin⟩
    rw [← View.resolve_eq_ok_iff_leads] at hl
    simp only [hpaths, List.mem_cons, List.not_mem_nil, or_false] at hm
    rcases hm with rfl | rfl | rfl
    all_goals simp [hparts, links] at hl
    · exact absurd hin (by subst hl; decide)
    · exact absurd hin (by subst hl; decide)
  obtain ⟨guard, hcreate, hverdict, hagain⟩ := create_gives_verdicts hq "/home"
  have hcheck : guard.check links "lib" = .ok ["p", "app"] :=
    (hverdict _ _).mpr (.passes hlib (by decide) hclear)
  have hpath : Location.path ["p", "app"] = "/p/app" := by decide
  exact ⟨hq, guard, hcreate, hcheck, hpath ▸ (hagain _ _ hcheck).2⟩

end

end Guard
end Graft
