import Graft.Proofs.Injection.Decision

/-! # Artifacts taken for the plugin

A script counts as declaring the plugin when the plugin's group and name, with a colon between
them, stand in it outside comments, whatever they are part of.  So an artifact is taken for the
plugin when its group ends in the plugin's group and its name starts with the plugin's name.
-/
namespace Graft
open Scan Text

/-- A character that groups and names of artifacts are made of. -/
def isArtifactChar (c : Char) : Bool :=
  c.isAlphanum || c = '.' || c = '_' || c = '-'

def IsArtifactWord (text : String) : Prop :=
  text ≠ "" ∧ ∀ c ∈ text.toList, isArtifactChar c = true

instance (text : String) : Decidable (IsArtifactWord text) :=
  decidable_of_iff (text ≠ "" ∧ text.toList.all isArtifactChar) (by simp [IsArtifactWord])

theorem IsArtifactWord.prepend {lead text : String} (h : IsArtifactWord text)
    (hlead : ∀ c ∈ lead.toList, isArtifactChar c = true) : IsArtifactWord (lead ++ text) := by
  refine ⟨fun he => h.1 (String.append_eq_empty_iff.mp he).2, ?_⟩
  simpa [or_imp, forall_and] using ⟨hlead, h.2⟩

theorem IsArtifactWord.append {text tail : String} (h : IsArtifactWord text)
    (htail : ∀ c ∈ tail.toList, isArtifactChar c = true) : IsArtifactWord (text ++ tail) := by
  refine ⟨fun he => h.1 (String.append_eq_empty_iff.mp he).1, ?_⟩
  simpa [or_imp, forall_and] using ⟨h.2, htail⟩

/-- Group and name of an artifact stand in a text from an offset on, and nothing in front of
them or behind them goes on with either. -/
structure ArtifactAt (text group name : String) (start : Nat) : Prop where
  groupWord : IsArtifactWord group
  nameWord : IsArtifactWord name
  place : ∃ before after, text.toList = before ++ (group.toList ++ ':' :: (name.toList ++ after)) ∧
    start = byteLength before ∧ (∀ c ∈ before.getLast?, isArtifactChar c = false) ∧
      ∀ c ∈ after.head?, isArtifactChar c = false

/-- A text starts with as many characters of a kind as it can. -/
theorem Text.exists_run (kind : Char → Bool) (text : List Char) :
    ∃ run rest, text = run ++ rest ∧ (∀ c ∈ run, kind c = true) ∧
      ∀ c ∈ rest.head?, kind c = false := by
  refine ⟨text.takeWhile kind, text.dropWhile kind, List.takeWhile_append_dropWhile.symm,
    List.all_eq_true.mp List.all_takeWhile, fun c hc => ?_⟩
  have hhead := List.head?_dropWhile_not kind text
  rw [Option.mem_def.mp hc] at hhead
  exact hhead

/-- A text ends in as many characters of a kind as it can. -/
theorem Text.exists_run_at_end (kind : Char → Bool) (text : List Char) :
    ∃ rest run, text = rest ++ run ∧ (∀ c ∈ run, kind c = true) ∧
      ∀ c ∈ rest.getLast?, kind c = false := by
  obtain ⟨run, rest, ht, hrun, hrest⟩ := exists_run kind text.reverse
  refine ⟨rest.reverse, run.reverse, ?_, ?_, ?_⟩
  · rw [← List.reverse_append, ← ht, List.reverse_reverse]
  · exact fun c hc => hrun c (List.mem_reverse.mp hc)
  · simpa using hrest

namespace Config

/-- The plugin's group and name stand outside comments as part of an artifact whose group has
`lead` in front of the plugin's and whose name has `tail` behind it. -/
def TakenFor (c : Config) (content lead tail : String) : Prop :=
  ∃ start, ArtifactAt content (lead ++ c.plugin.group) (c.plugin.name ++ tail) start ∧
    (c.classify content).Admits Kind.isComment c.plugin.moduleName content
      (start + lead.utf8ByteSize)

/-- The plugin's group and name stand outside comments, and neither the character before them
nor the one behind them can belong to an artifact. -/
def WholeAt (c : Config) (content : String) (start : Nat) : Prop :=
  (c.classify content).Admits Kind.isComment c.plugin.moduleName content start ∧
    (∀ x ∈ (takeBytes start content.toList).getLast?, isArtifactChar x = false) ∧
      ∀ x ∈ (dropBytes (start + c.plugin.moduleName.utf8ByteSize) content.toList).head?,
        isArtifactChar x = false

variable {c : Config} {content : String}

theorem toList_moduleName (p : Plugin) :
    p.moduleName.toList = p.group.toList ++ ':' :: p.name.toList := by
  simp [Plugin.moduleName]

/-- Where the plugin is named, some artifact is taken for it. -/
theorem named_iff_exists_takenFor (hg : IsArtifactWord c.plugin.group)
    (hn : IsArtifactWord c.plugin.name) :
    c.Named content ↔ ∃ lead tail, c.TakenFor content lead tail := by
  constructor
  · rintro ⟨start, h⟩
    obtain ⟨before, after, ht, rfl⟩ :=
      (occursAt_iff_standsAt c.plugin.moduleName_ne_empty).mp h.occurs
    obtain ⟨rest, lead, rfl, hlead, hrest⟩ := exists_run_at_end isArtifactChar before
    obtain ⟨tail, more, rfl, htail, hmore⟩ := exists_run isArtifactChar after
    have hgroup : IsArtifactWord (.ofList lead ++ c.plugin.group) :=
      hg.prepend (by simpa using hlead)
    have hname : IsArtifactWord (c.plugin.name ++ .ofList tail) :=
      hn.append (by simpa using htail)
    have hplace : content.toList = rest ++ ((String.ofList lead ++ c.plugin.group).toList ++
        ':' :: ((c.plugin.name ++ String.ofList tail).toList ++ more)) := by
      simp [ht, toList_moduleName]
    refine ⟨.ofList lead, .ofList tail, byteLength rest,
      ⟨hgroup, hname, rest, more, hplace, rfl, hrest, hmore⟩, ?_⟩
    rwa [← byteLength_eq_utf8ByteSize, ← byteLength_append]
  · rintro ⟨lead, tail, start, -, h⟩
    exact ⟨_, h⟩

/-- What stands before and behind a place of the module. -/
theorem takeBytes_dropBytes_moduleName {before after : List Char}
    (h : content.toList = before ++ (c.plugin.moduleName.toList ++ after)) :
    takeBytes (byteLength before) content.toList = before ∧
      dropBytes (byteLength before + c.plugin.moduleName.utf8ByteSize) content.toList = after := by
  have hstop := dropBytes_append (before ++ c.plugin.moduleName.toList) after
  rw [byteLength_append, byteLength_toList, List.append_assoc, ← h] at hstop
  exact ⟨by rw [h, takeBytes_append], hstop⟩

/-- The plugin stands as a whole where the artifact taken for it is the plugin itself. -/
theorem exists_wholeAt_iff (hg : IsArtifactWord c.plugin.group)
    (hn : IsArtifactWord c.plugin.name) :
    (∃ start, c.WholeAt content start) ↔ c.TakenFor content "" "" := by
  unfold TakenFor
  simp only [String.empty_append, String.append_empty, String.utf8ByteSize_empty, Nat.add_zero]
  refine exists_congr fun start => ?_
  constructor
  · rintro ⟨h, hb, ha⟩
    obtain ⟨before, after, ht, rfl⟩ :=
      (occursAt_iff_standsAt c.plugin.moduleName_ne_empty).mp h.occurs
    obtain ⟨hbefore, hafter⟩ := takeBytes_dropBytes_moduleName ht
    rw [hbefore] at hb
    rw [hafter] at ha
    exact ⟨⟨hg, hn, before, after, by simpa [toList_moduleName] using ht, rfl, hb, ha⟩, h⟩
  · rintro ⟨⟨-, -, before, after, ht, rfl, hb, ha⟩, h⟩
    have hmodule : content.toList = before ++ (c.plugin.moduleName.toList ++ after) := by
      simpa [toList_moduleName] using ht
    obtain ⟨hbefore, hafter⟩ := takeBytes_dropBytes_moduleName hmodule
    refine ⟨h, ?_, ?_⟩
    · rwa [hbefore]
    · rwa [hafter]

/-- An injection takes a script for one that declares the plugin when some artifact in it is
taken for the plugin; it is right to do so when the plugin itself is among these. -/
theorem alreadyPresent_iff_takenFor (hg : IsArtifactWord c.plugin.group)
    (hn : IsArtifactWord c.plugin.name) (content : String) :
    ((c.inject content).outcome = .alreadyPresent ↔ ∃ lead tail, c.TakenFor content lead tail) ∧
    (((c.inject content).outcome = .alreadyPresent → ∃ start, c.WholeAt content start) ↔
      ((∃ lead tail, c.TakenFor content lead tail) → c.TakenFor content "" "")) := by
  have hpresent : (c.inject content).outcome = .alreadyPresent ↔
      ∃ lead tail, c.TakenFor content lead tail := by
    rw [outcome_inject_eq_iff, declares_iff_named, named_iff_exists_takenFor hg hn]
  exact ⟨hpresent, by rw [hpresent, exists_wholeAt_iff hg hn]⟩

def agent : Config :=
  { plugin := { group := "org.trace", name := "agent" } }

/-- An artifact with a longer name stands in front of the plugin itself. -/
theorem alreadyPresent_iff_takenFor_both :
    let c := agent
    let content := "classpath 'org.trace:agent-core:2' // old\nclasspath 'org.trace:agent:1'"
    IsArtifactWord c.plugin.group ∧ IsArtifactWord c.plugin.name ∧
      (c.inject content).outcome = .alreadyPresent ∧ c.TakenFor content "" "" ∧
      ∃ start, c.WholeAt content start := by
  intro c content
  have hg : IsArtifactWord c.plugin.group := by decide
  have hn : IsArtifactWord c.plugin.name := by decide
  have ho : (c.inject content).outcome = .alreadyPresent := by decide +kernel
  let before := "classpath 'org.trace:agent-core:2' // old\nclasspath '"
  have hcut : content.toList = before.toList ++ (c.plugin.moduleName.toList ++ ":1'".toList) := by
    decide +kernel
  have hclear : (c.classify content).Clear Kind.isComment (byteLength before.toList)
      (byteLength before.toList + byteLength c.plugin.moduleName.toList) := by
    unfold Classification.Clear
    decide +kernel
  have hat : (c.classify content).Admits Kind.isComment c.plugin.moduleName content
      (byteLength before.toList) :=
    (Classification.admits_iff (placed_of _ _) c.plugin.moduleName_ne_empty).mpr
      ⟨⟨_, _, hcut, rfl⟩, hclear⟩
  have hlast : ∀ x ∈ before.toList.getLast?, isArtifactChar x = false := by
    simp [before, isArtifactChar]
  have hnext : ∀ x ∈ ":1'".toList.head?, isArtifactChar x = false := by
    simp [isArtifactChar]
  have htaken : c.TakenFor content "" "" := by
    refine ⟨_, ⟨hg, hn, before.toList, ":1'".toList, ?_, rfl, hlast, hnext⟩, hat⟩
    exact hcut.trans (by simp [toList_moduleName])
  exact ⟨hg, hn, ho, htaken,
    (alreadyPresent_iff_takenFor hg hn content).2.mpr (fun _ => htaken) ho⟩

/-- The plugin stands nowhere as a whole when each place of it goes on with the name of an
artifact. -/
theorem not_exists_wholeAt
    (h : ∀ i < content.toList.length,
      c.plugin.moduleName.toList.isPrefixOf (content.toList.drop i) = true →
        (content.toList.drop (i + c.plugin.moduleName.toList.length)).head?.any isArtifactChar) :
    ¬ ∃ start, c.WholeAt content start := by
  rintro ⟨start, hat, -, ha⟩
  obtain ⟨before, after, ht, rfl⟩ :=
    (occursAt_iff_standsAt c.plugin.moduleName_ne_empty).mp hat.occurs
  rw [(takeBytes_dropBytes_moduleName ht).2] at ha
  have hstands : content.toList.drop before.length = c.plugin.moduleName.toList ++ after := by
    rw [ht, List.drop_left]
  have hlt : before.length < content.toList.length := by
    have := List.length_pos_iff.mpr (Lexicon.toList_ne_nil c.plugin.moduleName_ne_empty)
    rw [ht, List.length_append, List.length_append]
    omega
  have hnext := h before.length hlt (by simp [hstands])
  rw [← List.drop_drop, hstands, List.drop_left, Option.any_eq_true_iff_get] at hnext
  obtain ⟨hsome, hnext⟩ := hnext
  rw [ha _ (Option.get_mem hsome)] at hnext
  cases hnext

/-- Only an artifact with a longer name stands in the script, and the plugin is not declared. -/
theorem alreadyPresent_without_plugin :
    let c := agent
    let content := "buildscript \x7b classpath 'org.trace:agent-core:2' \x7d\n"
    IsArtifactWord c.plugin.group ∧ IsArtifactWord c.plugin.name ∧
      c.inject content = ⟨content, .alreadyPresent⟩ ∧ ¬ ∃ start, c.WholeAt content start :=
  ⟨by decide +kernel, by decide +kernel, by decide +kernel, not_exists_wholeAt (by decide +kernel)⟩

end Config
end Graft
