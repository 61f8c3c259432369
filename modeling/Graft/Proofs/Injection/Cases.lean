import Graft.Injection
import Graft.Proofs.Scan.Insertion

/-! # What an injection does

A script that names the plugin outside its comments is left alone.  In any other the
declaration is put in behind the marker, up to where the script can be read, or a whole block
in front.
-/
namespace Graft.Config
open Scan Text

theorem spliceAt_append (before after inserted : String) :
    spliceAt (before ++ after) before.utf8ByteSize inserted = before ++ (inserted ++ after) := by
  rw [spliceAt, ← String.toList_inj, ← byteLength_toList before, String.toList_append,
    takeBytes_append, dropBytes_append]
  simp

section
variable {c : Config} (hc : c.lexicon.blockClose ≠ "")
  (hcn : '\n' ∉ c.lexicon.blockClose.toList)
include hc hcn

/-- Behind the marker the script can be cut: it can be read up to there. -/
theorem insertionPoint?_eq_some {content marker : String} {offset : Nat}
    (hp : c.insertionPoint? content marker = some offset) :
    ∃ before after pieces, content = before ++ after ∧ offset = before.utf8ByteSize ∧
      Reads c.lexicon (before.toList ++ after.toList) pieces after.toList := by
  obtain ⟨start, hf, rfl⟩ := Option.map_eq_some_iff.mp hp
  rw [findInCode?, classify] at hf
  obtain ⟨hne, ⟨lead, after, ht, rfl⟩, hclear⟩ :=
    Classification.clear_of_find?_eq_some (placed_of _ content) hf
  have hcut : content = .ofList (lead ++ marker.toList) ++ .ofList after := by
    rw [← String.toList_inj, ht]
    simp
  have hsize : (String.ofList (lead ++ marker.toList)).utf8ByteSize =
      byteLength lead + byteLength marker.toList := by
    rw [← byteLength_eq_utf8ByteSize, byteLength_append]
  have hpos : 0 < byteLength marker.toList :=
    Nat.pos_of_ne_zero (mt byteLength_eq_zero_iff.mp hne)
  rw [hcut, ← hsize] at hclear
  obtain ⟨pieces, hr⟩ := exists_reads_of hc hcn (by omega) hclear
  exact ⟨_, _, pieces, hcut, hsize.symm, hr⟩

/-- The three things that an injection does. -/
theorem inject_cases (content : String) :
    (c.declares content = true ∧ c.inject content = ⟨content, .alreadyPresent⟩) ∨
      (c.declares content = false ∧ ∃ before after pieces, content = before ++ after ∧
        c.insertionPoint? content c.target.marker = some before.utf8ByteSize ∧
        Reads c.lexicon (before.toList ++ after.toList) pieces after.toList ∧
        c.inject content = ⟨before ++ (c.declaration ++ after), .updatedBlock⟩) ∨
      (c.declares content = false ∧ c.insertionPoint? content c.target.marker = none ∧
        c.inject content = ⟨c.standaloneBlock ++ content, .prependedBlock⟩) := by
  cases hd : c.declares content with
  | true => exact .inl ⟨rfl, by rw [inject, if_pos hd]⟩
  | false =>
    cases hp : c.insertionPoint? content c.target.marker with
    | none =>
      exact .inr (.inr ⟨rfl, rfl, by simp [inject, hd, updateBlock?, hp]⟩)
    | some offset =>
      obtain ⟨before, after, pieces, rfl, rfl, hr⟩ := insertionPoint?_eq_some hc hcn hp
      refine .inr (.inl ⟨rfl, before, after, pieces, rfl, rfl, hr, ?_⟩)
      simp [inject, hd, updateBlock?, hp, spliceAt_append]

end

theorem inject_of_declares {c : Config} {content : String} (h : c.declares content = true) :
    c.inject content = ⟨content, .alreadyPresent⟩ := by
  rw [inject, if_pos h]

theorem outcome_inject_eq_iff {c : Config} {content : String} :
    (c.inject content).outcome = .alreadyPresent ↔ c.declares content = true := by
  cases hd : c.declares content with
  | true => simp [inject_of_declares hd]
  | false =>
    rw [inject, if_neg (by simp [hd])]
    split <;> simp

end Graft.Config
