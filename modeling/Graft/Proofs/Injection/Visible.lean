import Graft.Config.Validation
import Graft.Proofs.Config.Lexicon
import Graft.Proofs.Injection.Cases
import Graft.Proofs.Scan.Following

/-! # Declarations that show the plugin

Validation asks for the placeholder of the coordinate somewhere in the template, so the
coordinate may come to stand in a comment, where the next injection does not see it.  Where
the declaration names the coordinate outside its comments, an injection under any lexicon is
found by the next one, whatever follows the declaration in the script.
-/
namespace Graft
open Scan Text

namespace Config

theorem Plugin.moduleName_ne_empty (p : Plugin) : p.moduleName ≠ "" := by
  intro he
  have hl := congrArg String.toList he
  simp [moduleName] at hl

theorem Plugin.coordinate_eq (p : Plugin) : p.coordinate = p.moduleName ++ (":" ++ p.version) := by
  simp only [coordinate, moduleName, String.append_assoc]

theorem Plugin.coordinate_ne_empty (p : Plugin) : p.coordinate ≠ "" := by
  intro he
  rw [coordinate_eq, String.append_eq_empty_iff] at he
  exact p.moduleName_ne_empty he.1

/-- The declaration starts a line and names the coordinate outside comments, the target marker
leaves no comment open, and no marker of a comment holds the version with its colon. -/
structure ShowsPlugin (c : Config) : Prop where
  newline : c.declaration.toList.head? = some '\n'
  visible : ((c.classify c.declaration).findUncommented? c.plugin.coordinate
    c.declaration).isSome = true
  marker : (c.classify c.target.marker).endState = .code
  lineComment : ¬ (":" ++ c.plugin.version).toList <:+: c.lexicon.lineComment.toList
  blockOpen : ¬ (":" ++ c.plugin.version).toList <:+: c.lexicon.blockOpen.toList
  blockClose : '\n' ∉ c.lexicon.blockClose.toList

/-- What is left of a text from a place before some part of it holds that part, so it does not
start a marker that does not hold the part. -/
theorem not_prefix_of_lt {lead part tail marker u v : List Char} (hp : ¬ part <:+: marker)
    (h : lead ++ (part ++ tail) = u ++ v) (hlt : byteLength u < byteLength lead) :
    ¬ v <+: marker := by
  rcases List.append_eq_append_iff.mp h with ⟨w, rfl, _⟩ | ⟨w, rfl, rfl⟩
  · simp only [byteLength_append] at hlt
    omega
  · intro hv
    exact hp ((List.IsInfix.trans ⟨w, tail, by simp⟩ hv.isInfix))

namespace ShowsPlugin
variable {c : Config} (h : c.ShowsPlugin) (hc : c.lexicon.blockClose ≠ "")
include h hc

/-- Whatever follows the declaration, the module stands in it outside comments. -/
theorem exists_commentFree (after : List Char) :
    ∃ lead tail, c.declaration.toList = lead ++ (c.plugin.moduleName.toList ++ tail) ∧
      CommentFree 0 (scanText c.lexicon (c.declaration.toList ++ after)).pieces
        (byteLength lead) (byteLength lead + byteLength c.plugin.moduleName.toList) := by
  obtain ⟨-, _, ⟨lead, tail, ht, rfl⟩, hclear⟩ :=
    (Classification.isSome_find?_iff (placed_of _ _)).mp h.visible
  have hcoordinate : c.plugin.coordinate.toList =
      c.plugin.moduleName.toList ++ (":" ++ c.plugin.version).toList := by
    rw [Plugin.coordinate_eq, String.toList_append]
  rw [hcoordinate, List.append_assoc] at ht
  refine ⟨lead, _, ht, ?_⟩
  have hpos : 0 < byteLength c.plugin.moduleName.toList :=
    Nat.pos_of_ne_zero (mt byteLength_eq_zero_iff.mp
      (Lexicon.toList_ne_nil c.plugin.moduleName_ne_empty))
  have hlen := congrArg byteLength ht
  simp only [byteLength_append] at hlen
  have hbefore {u v : List Char} {marker : String}
      (hm : ¬ (":" ++ c.plugin.version).toList <:+: marker.toList)
      (huv : c.declaration.toList = u ++ v)
      (hlt : 0 + byteLength u < byteLength lead + byteLength c.plugin.moduleName.toList) :
      ¬ v <+: marker.toList := by
    rw [ht, ← List.append_assoc] at huv
    exact not_prefix_of_lt hm huv (by rw [byteLength_append]; omega)
  refine CommentFree.append hc after (by omega) (by omega) (fun u v => hbefore h.lineComment)
    (fun u v => hbefore h.blockOpen) fun s hs hk hover => ?_
  rw [Classification.Clear, segments_of hc h.blockClose, hcoordinate,
    byteLength_append] at hclear
  exact hclear s hs hk (by omega)

/-- Where a text can be read up to the declaration, the plugin is declared in it. -/
theorem declares_of_reads {before after : String} {pieces : List Piece}
    (hr : Reads c.lexicon (before.toList ++ (c.declaration.toList ++ after.toList)) pieces
      (c.declaration.toList ++ after.toList)) :
    c.declares (before ++ (c.declaration ++ after)) = true := by
  obtain ⟨lead, tail, ht, hfree⟩ := h.exists_commentFree hc after.toList
  refine (Classification.isSome_find?_iff (placed_of _ _)).mpr
    ⟨Lexicon.toList_ne_nil c.plugin.moduleName_ne_empty, byteLength (before.toList ++ lead),
      ⟨before.toList ++ lead, tail ++ after.toList, by simp [ht], rfl⟩, ?_⟩
  intro s hs hk hover
  rw [segments_of hc h.blockClose, String.toList_append, String.toList_append, hr.scanText,
    LineScan.behind, segmentsFrom_append, List.mem_append, hr.text_of_append, segmentsFrom_add,
    List.mem_map] at hs
  rw [byteLength_append] at hover
  rcases hs with hs | ⟨s, hs, rfl⟩
  · have := (le_of_mem_segmentsFrom hs).2
    rw [hr.text_of_append] at this
    omega
  · refine hfree s hs hk ?_
    simp only [Segment.shift, Span.shift] at hover
    omega

theorem declares_inject (content : String) : c.declares (c.inject content).content = true := by
  rcases inject_cases hc h.blockClose content with ⟨hd, hi⟩ |
    ⟨_, before, after, pieces, rfl, _, hr, hi⟩ | ⟨_, _, hi⟩
  · rwa [hi]
  · rw [hi]
    exact h.declares_of_reads hc (hr.insert_newline hc h.newline)
  · rcases endState_cases hc h.blockClose c.target.marker with ⟨-, pieces, hr⟩ | ⟨he, -⟩
    · obtain ⟨d, hd⟩ := List.head?_eq_some_iff.mp h.newline
      have hmore : (c.declaration ++ ("\n\x7d\n" ++ content)).toList =
          '\n' :: (d ++ ("\n\x7d\n" ++ content).toList) := by
        rw [String.toList_append, hd, List.cons_append]
      have hr' := hr.append_newline hc hmore
      rw [String.toList_append, String.toList_append, List.nil_append] at hr'
      have hdeclares := h.declares_of_reads hc hr'
      rwa [hi, standaloneBlock, String.append_assoc, String.append_assoc]
    · exact absurd (h.marker.symm.trans he) (by decide)

end ShowsPlugin

theorem inject_settles {c : Config} (hv : c.validate = .ok ()) (h : c.ShowsPlugin)
    (content : String) :
    c.declares (c.inject content).content = true ∧
      c.inject (c.inject content).content = ⟨(c.inject content).content, .alreadyPresent⟩ := by
  have hd := h.declares_inject (blockMarkers_ne_empty hv).2 content
  exact ⟨hd, inject_of_declares hd⟩

/-- The coordinate as the argument of a command, in scripts with `#` for line comments. -/
def commandStyle : Config :=
  { target := ⟨"dependencies \x7b"⟩
    templates := { dependency := "\n    classpath '\x7bcoordinate\x7d'", repository := "" }
    lexicon := { lineComment := "#" } }

/-- A lone quote in front of the marker and a comment behind it. -/
theorem inject_settles_commandStyle :
    let content := "it's\ndependencies \x7b # trace\n\x7d\n"
    commandStyle.validate = .ok () ∧ commandStyle.ShowsPlugin ∧
      (commandStyle.inject content).outcome = .updatedBlock ∧
      commandStyle.inject (commandStyle.inject content).content =
        ⟨(commandStyle.inject content).content, .alreadyPresent⟩ := by
  intro content
  have hv : commandStyle.validate = .ok () := validate_eq_ok_iff.mpr (by decide +kernel)
  have hs : commandStyle.ShowsPlugin := by
    constructor <;> decide +kernel
  exact ⟨hv, hs, by decide +kernel, (inject_settles hv hs content).2⟩

/-- The class path names a catalogue entry, and the coordinate follows as a comment. -/
def coordinateInComment : Config :=
  { templates :=
      { dependency := "\n    classpath(libs.trace) // \x7bcoordinate\x7d", repository := "" } }

/-- A valid configuration under which every run injects once more. -/
theorem inject_repeats_coordinateInComment :
    let content := "buildscript \x7b\n\x7d\n"
    let updated := "buildscript \x7b\n    classpath(libs.trace) // " ++
      "io.bitrise.trace.plugin:trace-gradle-plugin:0.0.8\n\x7d\n"
    coordinateInComment.validate = .ok () ∧
      coordinateInComment.inject content = ⟨updated, .updatedBlock⟩ ∧
      coordinateInComment.declares updated = false ∧
      (coordinateInComment.inject updated).outcome ≠ .alreadyPresent := by
  intro content updated
  have hv : coordinateInComment.validate = .ok () := validate_eq_ok_iff.mpr (by decide +kernel)
  have hd : coordinateInComment.declares updated = false := by decide +kernel
  exact ⟨hv, by decide +kernel, hd, by simp [outcome_inject_eq_iff, hd]⟩

end Config
end Graft
