import Graft.Command.Status
import Graft.Proofs.Config.Filling
import Graft.Proofs.Injection.Visible
import Graft.Proofs.Scan.Leftmost

/-! # What an injection decides

Two searches decide what an injection does: one for the plugin outside comments, one for the
target marker in code.  The status report asks the same two, so it tells of each script what an
injection would do to it.  What a valid configuration puts in names the plugin with its
version, so a script is changed exactly when something is put in.
-/
namespace Graft
open Scan Text

namespace Scan.Classification

theorem findsFirst {c : Classification} (h : Placed c.segments) (avoid : Kind → Bool)
    (needle text : String) :
    FindsFirst (c.find? avoid needle text) needle text (c.Admits avoid needle text) :=
  findsFirst_find? h fun start => by rw [Bool.not_eq_true', touches_eq_false_iff h]

end Scan.Classification

/-- How a script stands to the plugin before an injection with a given outcome. -/
def Injection.Outcome.standing : Injection.Outcome → Command.Standing
  | .alreadyPresent => .declared
  | .updatedBlock => .blockPresent
  | .prependedBlock => .noBlock

namespace Config

/-- The plugin is named at a place that no comment touches. -/
def Named (c : Config) (content : String) : Prop :=
  ∃ start, (c.classify content).Admits Kind.isComment c.plugin.moduleName content start

/-- The target marker stands at a place that no comment and no literal touches. -/
def MarkedAt (c : Config) (content : String) (start : Nat) : Prop :=
  (c.classify content).Admits (fun _ => true) c.target.marker content start

/-- What an injection does, and why. -/
inductive Decides (c : Config) (content : String) : Injection → Prop
  | alreadyPresent (named : c.Named content) : Decides c content ⟨content, .alreadyPresent⟩
  | updatedBlock (unnamed : ¬ c.Named content) {start : Nat} {before after : String}
      (marked : c.MarkedAt content start)
      (first : ∀ other, c.MarkedAt content other → start ≤ other)
      (cut : content = before ++ after)
      (place : before.utf8ByteSize = start + c.target.marker.utf8ByteSize) :
      Decides c content ⟨before ++ (c.declaration ++ after), .updatedBlock⟩
  | prependedBlock (unnamed : ¬ c.Named content)
      (unmarked : ∀ start, ¬ c.MarkedAt content start) :
      Decides c content ⟨c.standaloneBlock ++ content, .prependedBlock⟩

section
variable {c : Config} {content : String}

theorem declares_iff_named : c.declares content = true ↔ c.Named content := by
  have hfirst := Classification.findsFirst (placed_of c.lexicon content) Kind.isComment
    c.plugin.moduleName content
  rw [declares, Option.isSome_iff_ne_none, ne_eq, Classification.findUncommented?, classify,
    hfirst.eq_none_iff]
  simp [Named, classify, c.plugin.moduleName_ne_empty]

theorem findsFirst_marker (c : Config) (content : String) :
    FindsFirst (c.findInCode? content c.target.marker) c.target.marker content
      (c.MarkedAt content) :=
  Classification.findsFirst (placed_of c.lexicon content) _ _ _

/-- The insertion point lies behind the first place of the marker in code. -/
theorem insertionPoint?_eq_some_iff (hm : c.target.marker ≠ "") {offset : Nat} :
    c.insertionPoint? content c.target.marker = some offset ↔
      ∃ start, c.MarkedAt content start ∧ (∀ other, c.MarkedAt content other → start ≤ other) ∧
        offset = start + c.target.marker.utf8ByteSize := by
  rw [insertionPoint?, Option.map_eq_some_iff, byteLength_toList]
  refine exists_congr fun start => ?_
  rw [(findsFirst_marker c content).eq_some_iff, and_assoc, and_iff_right hm, and_assoc,
    eq_comm (a := offset)]

theorem insertionPoint?_eq_none_iff (hm : c.target.marker ≠ "") :
    c.insertionPoint? content c.target.marker = none ↔ ∀ start, ¬ c.MarkedAt content start := by
  rw [insertionPoint?, Option.map_eq_none_iff, (findsFirst_marker c content).eq_none_iff]
  simp [hm]

/-- The injection and the status report decide alike. -/
theorem decides_inject (hm : c.target.marker ≠ "") (content : String) :
    c.Decides content (c.inject content) ∧
      Command.standing c content = (c.inject content).outcome.standing := by
  cases hd : c.declares content with
  | true =>
    rw [inject_of_declares hd]
    exact ⟨.alreadyPresent (declares_iff_named.mp hd), by simp [Command.standing, hd]; rfl⟩
  | false =>
    have hn : ¬ c.Named content := by simp [← declares_iff_named, hd]
    cases hp : c.insertionPoint? content c.target.marker with
    | none =>
      have hi : c.inject content = ⟨c.standaloneBlock ++ content, .prependedBlock⟩ := by
        simp [inject, hd, updateBlock?, hp]
      rw [hi]
      refine ⟨.prependedBlock hn ((insertionPoint?_eq_none_iff hm).mp hp), ?_⟩
      simp [Command.standing, hd, hp, Injection.Outcome.standing]
    | some offset =>
      obtain ⟨start, hat, hfirst, rfl⟩ := (insertionPoint?_eq_some_iff hm).mp hp
      obtain ⟨-, hboundary⟩ := ((occursAt_iff_standsAt hm).mp hat.occurs).isBoundary
      obtain ⟨before, after, rfl, hb⟩ := isBoundary_iff.mp hboundary
      have hi : c.inject (before ++ after) =
          ⟨before ++ (c.declaration ++ after), .updatedBlock⟩ := by
        simp [inject, hd, updateBlock?, hp, hb, spliceAt_append]
      rw [hi]
      refine ⟨.updatedBlock hn hat hfirst rfl hb.symm, ?_⟩
      simp [Command.standing, hd, hp, Injection.Outcome.standing]

end

namespace Decides
variable {c : Config} {content : String} {injection : Injection} (h : c.Decides content injection)
include h

theorem alreadyPresent_iff : injection.outcome = .alreadyPresent ↔ c.Named content := by
  cases h with
  | alreadyPresent named => simpa using named
  | updatedBlock unnamed | prependedBlock unnamed => simpa using unnamed

theorem updatedBlock_iff : injection.outcome = .updatedBlock ↔
    ¬ c.Named content ∧ ∃ start, c.MarkedAt content start := by
  cases h with
  | alreadyPresent named => simp [named]
  | updatedBlock unnamed marked => simpa [unnamed] using ⟨_, marked⟩
  | prependedBlock unnamed unmarked => simp [unmarked]

theorem prependedBlock_iff : injection.outcome = .prependedBlock ↔
    ¬ c.Named content ∧ ∀ start, ¬ c.MarkedAt content start := by
  cases h with
  | alreadyPresent named => simp [named]
  | updatedBlock unnamed marked => simpa [unnamed] using ⟨_, marked⟩
  | prependedBlock unnamed unmarked => simp [unnamed, unmarked]

end Decides

section
variable {c : Config} (hv : c.validate = .ok ())
include hv

theorem marker_ne_empty : c.target.marker ≠ "" := by
  have hi := validate_eq_ok_iff.mp hv
  simp only [issues, List.append_eq_nil_iff, and_assoc] at hi
  exact ne_empty_of_requireText hi.1

/-- The template of the dependency names the coordinate. -/
theorem coordinate_infix_declaration :
    c.plugin.coordinate.toList <:+: c.declaration.toList := by
  have hi := validate_eq_ok_iff.mp hv
  simp only [issues, List.append_eq_nil_iff, and_assoc] at hi
  obtain ⟨-, -, -, -, -, -, -, -, hdependency, -⟩ := hi
  rw [declaration, String.toList_append]
  exact (infix_fill (infix_of_requirePlaceholder hdependency) _).trans (List.prefix_append _ _).isInfix

theorem coordinate_infix_standaloneBlock :
    c.plugin.coordinate.toList <:+: c.standaloneBlock.toList := by
  rw [standaloneBlock, String.append_assoc, String.toList_append, String.toList_append]
  refine (coordinate_infix_declaration hv).trans ?_
  exact ((List.prefix_append _ _).isInfix).trans (List.suffix_append _ _).isInfix

/-- What is put in names the plugin with its version; without it the old text is left. -/
theorem Decides.exists_inserted {content : String} {injection : Injection}
    (h : c.Decides content injection) :
    ∃ before inserted after, content = before ++ after ∧
      injection.content = before ++ (inserted ++ after) ∧
      (injection.outcome = .alreadyPresent → inserted = "") ∧
      (injection.outcome ≠ .alreadyPresent →
        c.plugin.coordinate.toList <:+: inserted.toList) := by
  cases h with
  | alreadyPresent => exact ⟨"", "", content, by simp, by simp, by simp, by simp⟩
  | @updatedBlock _ _ before after _ _ cut =>
    exact ⟨before, c.declaration, after, cut, rfl, by simp,
      fun _ => coordinate_infix_declaration hv⟩
  | prependedBlock =>
    exact ⟨"", c.standaloneBlock, content, by simp, by simp, by simp,
      fun _ => coordinate_infix_standaloneBlock hv⟩

theorem Decides.changed_iff {content : String} {injection : Injection}
    (h : c.Decides content injection) : injection.changed = true ↔ injection.content ≠ content := by
  obtain ⟨before, inserted, after, rfl, hnew, hnone, hsome⟩ := h.exists_inserted hv
  rw [Injection.changed, decide_eq_true_iff, hnew]
  constructor
  · intro hc he
    have hlength := congrArg String.length he
    simp only [String.length_append] at hlength
    have hle := (hsome hc).length_le
    have hpos := List.length_pos_iff.mpr (Lexicon.toList_ne_nil c.plugin.coordinate_ne_empty)
    simp only [String.length_toList] at hle hpos
    omega
  · intro hne hc
    exact hne (by rw [hnone hc, String.empty_append])

end

end Config

/-- A script that can be read is reported on one line, by how it stands to the plugin. -/
theorem Command.survey_cons {e : Environment} {project location : File.Location}
    {script : Script ByteArray} (h : Script.load id e.view (project ++ location).path = .ok script)
    (c : Config) (rest : List File.Location) :
    (survey e c project (location :: rest)).1 =
      standingLine e c ("/".intercalate location) (standing c script.content) ++
        (survey e c project rest).1 := by
  simp only [survey, h]

namespace Config

end Config
end Graft
