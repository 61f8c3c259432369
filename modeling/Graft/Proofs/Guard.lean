import Graft.Guard
import Graft.Proofs.File.View

/-! # What the guard lets pass -/
namespace Graft.Guard
open File

variable {v : View} {home path : String} {guard : Guard} {location : Location}

theorem create_eq_ok_iff :
    create v home path = .ok guard ↔
      v.resolve path = .ok guard.root ∧
        guard.forbidden = (protectedPaths home guard.root).filterMap fun dir =>
          (v.resolve dir).toOption := by
  obtain ⟨root, forbidden⟩ := guard
  simp only [create, bind_eq_ok_iff, mapError_eq_ok_iff]
  constructor
  · rintro ⟨_, hr, hc⟩
    cases hc
    exact ⟨hr, rfl⟩
  · rintro ⟨hr, rfl⟩
    exact ⟨root, hr, rfl⟩

theorem mem_forbidden_iff (h : create v home path = .ok guard) :
    location ∈ guard.forbidden ↔
      ∃ dir ∈ protectedPaths home guard.root, v.resolve dir = .ok location := by
  rw [(create_eq_ok_iff.mp h).2, List.mem_filterMap]
  refine exists_congr fun dir => and_congr_right fun _ => ?_
  cases v.resolve dir <;> simp [Except.toOption]

/-- What passes lies at or below the project's directory and no protected one. -/
theorem check_eq_ok_iff :
    guard.check v path = .ok location ↔
      v.resolve (Path.join guard.root.path path) = .ok location ∧
        guard.root <+: location ∧ ∀ dir ∈ guard.forbidden, ¬ dir <+: location := by
  simp only [check, bind_eq_ok_iff, mapError_eq_ok_iff]
  constructor
  · rintro ⟨found, hr, h⟩
    split at h
    · cases h
    · next hp =>
      split at h
      · cases h
      · next hf =>
        obtain rfl := Except.ok.inj h
        exact ⟨hr, by simpa using hp, by simpa using hf⟩
  · rintro ⟨hr, hp, hf⟩
    refine ⟨location, hr, ?_⟩
    have hnone : guard.forbidden.find? (·.isPrefixOf location) = none := by simpa using hf
    simp [List.isPrefixOf_iff_prefix.mpr hp, hnone, pure, Except.pure]

theorem canonical_of_check (h : guard.check v path = .ok location) :
    v.root.Canonical location :=
  View.canonical_of_resolve_absolute (check_eq_ok_iff.mp h).1
    (Path.isAbsolute_join guard.root.isAbsolute_path path)

/-- The path of a location that has passed leads back to it, so it passes as well. -/
theorem check_again (h : guard.check v path = .ok location) :
    guard.check v location.path = .ok location := by
  rw [check_eq_ok_iff, Path.join_of_isAbsolute location.isAbsolute_path]
  exact ⟨View.resolve_path (canonical_of_check h), (check_eq_ok_iff.mp h).2⟩

end Graft.Guard
