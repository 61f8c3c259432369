import Graft.Proofs.File.Replacement
import Graft.Proofs.Text.Utf8
import Graft.Script.Basic

/-! # Loading and saving a script

What a load reads, and the four ways in which a save ends.  A save that fails has failed
before it wrote anything.
-/
namespace Graft

namespace Dialect

theorem exists_append_ending {path : String} {dialect : Dialect}
    (h : ofPath path = .ok dialect) : ∃ text, path.toList = text ++ dialect.ending.toList := by
  have hends : dialect.endsPath path = true := by
    unfold ofPath at h
    split at h
    · next hk => exact Except.ok.inj h ▸ hk
    · split at h
      · next hg => exact Except.ok.inj h ▸ hg
      · cases h
  obtain ⟨text, ht⟩ := List.isSuffixOf_iff_suffix.mp hends
  exact ⟨text, ht.symm⟩

/-- A path with a dialect ends in a name. -/
theorem exists_lastName {path : String} {dialect : Dialect} (h : ofPath path = .ok dialect) :
    ∃ name, File.Path.lastName? path = some name := by
  obtain ⟨text, ht⟩ := exists_append_ending h
  have hslash : '/' ∉ dialect.ending.toList := by cases dialect <;> decide
  have hlong : 2 < dialect.ending.toList.length := by cases dialect <;> decide
  obtain ⟨pieces, piece, hs⟩ := Text.exists_splitOn_append hslash text
  have hname (part : String) (hp : part.toList.length ≤ 2) :
      String.ofList (piece ++ dialect.ending.toList) ≠ part := by
    rintro rfl
    simp only [String.toList_ofList, List.length_append] at hp
    omega
  refine ⟨.ofList (piece ++ dialect.ending.toList), File.Path.lastName?_eq_some_iff.mpr
    ⟨⟨pieces.map String.ofList, ?_⟩, ?_, hname ".." (by decide)⟩⟩
  · simp [File.Path.parts, ht, hs]
  · rw [File.Path.isIdle, decide_eq_false (hname "" (by decide)),
      decide_eq_false (hname "." (by decide)), Bool.or_self]

end Dialect

namespace Script
open File

variable {F : Type} {fingerprint : ByteArray → F} {v : View} {path content : String}
  {script : Script F}

theorem load_eq_ok_iff :
    load fingerprint v path = .ok script ↔
      script.path = path ∧ Dialect.ofPath path = .ok script.dialect ∧
        v.readBytes path = .ok script.content.toUTF8 ∧
          script.fingerprint = fingerprint script.content.toUTF8 := by
  simp only [load, bind_eq_ok_iff, mapError_eq_ok_iff]
  constructor
  · rintro ⟨dialect, hd, bytes, hb, h⟩
    split at h
    · cases h
    · next ht =>
      obtain rfl := Text.fromUTF8?_eq_some_iff.mp ht
      obtain rfl := Except.ok.inj h
      exact ⟨rfl, hd, hb, rfl⟩
  · rintro ⟨rfl, hd, hb, hf⟩
    refine ⟨_, hd, _, hb, ?_⟩
    rw [Text.fromUTF8?_eq_some_iff.mpr rfl, ← hf]
    rfl

/-- What a save may come to, and why. -/
inductive Saves (fingerprint : ByteArray → F) (v : View) (script : Script F)
    (content : String) : Except Error (SaveResult × Node) → Prop
  | unchanged (same : content = script.content) :
      Saves fingerprint v script content (.ok (.unchanged script.path, v.root))
  | unreadable (new : content ≠ script.content) (cause : File.Error)
      (read : v.readBytes script.path = .error cause) :
      Saves fingerprint v script content (.error (.unreadable script.path cause))
  | changed (new : content ≠ script.content) (bytes : ByteArray)
      (read : v.readBytes script.path = .ok bytes)
      (differs : fingerprint bytes ≠ script.fingerprint) :
      Saves fingerprint v script content (.error (.changedOnDisk script.path))
  | written (new : content ≠ script.content) (bytes : ByteArray)
      (read : v.readBytes script.path = .ok bytes)
      (same : fingerprint bytes = script.fingerprint) (parent : Location) (name : String)
      (root : Node) (replaced : v.Replaced script.path content.toUTF8 parent name root) :
      Saves fingerprint v script content
        (.ok (.written script.path content.utf8ByteSize, root))

theorem saves_save [DecidableEq F] (fingerprint : ByteArray → F) (v : View)
    (hp : Dialect.ofPath script.path = .ok script.dialect) (content : String) :
    Saves fingerprint v script content (script.save fingerprint v content) := by
  by_cases hc : content = script.content
  · subst hc
    simp only [save, if_true]
    exact .unchanged rfl
  cases hb : v.readBytes script.path with
  | error cause =>
    simp only [save, hc, hb, if_false, bind, Except.bind, mapError_error]
    exact .unreadable hc cause hb
  | ok bytes =>
    by_cases hf : fingerprint bytes = script.fingerprint
    · obtain ⟨name, hn⟩ := Dialect.exists_lastName hp
      obtain ⟨parent, root, hr, hreplaced⟩ := View.exists_replaced hb hn content.toUTF8
      simp only [save, hc, hb, hf, hr, if_false, ne_eq, not_true_eq_false, bind, Except.bind,
        mapError_ok]
      exact .written hc bytes hb hf parent name root hreplaced
    · simp only [save, hc, hb, hf, if_false, ne_eq, not_false_eq_true, if_true, bind,
        Except.bind, mapError_ok]
      exact .changed hc bytes hb hf

end Script
end Graft
