import Graft.Proofs.Config.Template
import Graft.Proofs.Injection.Visible
import Mathlib.Logic.Function.Iterate

/-! # Injecting the declaration

With the built-in marker, templates and lexicon an injection moves segments and adds one, the
literal that quotes the coordinate.  It changes no segment of the script and not the state at
its end, and the plugin that it declares is found by the next injection.
-/
namespace Graft
open Scan Text

theorem closes_builtIn :
    ({} : Lexicon).blockClose ≠ "" ∧ '\n' ∉ ({} : Lexicon).blockClose.toList := by
  decide

namespace Config

def standaloneLead : String :=
  ({} : Target).marker ++ declarationLead

def standaloneTail : String :=
  declarationTail ++ "\n\x7d\n"

theorem BuiltIn.standaloneBlock {c : Config} (h : c.BuiltIn) :
    c.standaloneBlock = standaloneLead ++ quote c.plugin.coordinate ++ standaloneTail := by
  rw [Config.standaloneBlock, h.target, h.declaration]
  simp only [standaloneLead, standaloneTail, String.append_assoc]

theorem plain_declaration :
    declarationLead.toList.all isPlain = true ∧ declarationTail.toList.all isPlain = true := by
  decide +kernel

theorem plain_standalone :
    standaloneLead.toList.all isPlain = true ∧ standaloneTail.toList.all isPlain = true := by
  decide +kernel

theorem BuiltIn.closes {c : Config} (h : c.BuiltIn) :
    c.lexicon.blockClose ≠ "" ∧ '\n' ∉ c.lexicon.blockClose.toList := by
  rw [h.lexicon]
  exact closes_builtIn

/-- The segment of the quoted coordinate behind `lead` in a text put in at an offset. -/
def coordinateSegment (c : Config) (offset : Nat) (lead : String) : Segment :=
  ⟨.stringLiteral, offset + lead.utf8ByteSize,
    offset + lead.utf8ByteSize + (quote c.plugin.coordinate).utf8ByteSize⟩

/-- What an injection may do to a script, and to its segments. -/
inductive Injects (c : Config) (content : String) : Injection → Prop
  | alreadyPresent (h : c.declares content = true) : Injects c content ⟨content, .alreadyPresent⟩
  | updatedBlock {before after lead tail : String} (h : c.declares content = false)
      (hc : content = before ++ after)
      (hp : c.insertionPoint? content c.target.marker = some before.utf8ByteSize)
      (hd : c.declaration = lead ++ quote c.plugin.coordinate ++ tail)
      (hn : ∀ s ∈ (c.classify content).segments,
        s.span.stop ≤ before.utf8ByteSize ∨ before.utf8ByteSize ≤ s.span.start)
      (hs : (c.classify (before ++ (c.declaration ++ after))).segments =
        spliceSegments (c.classify content).segments before.utf8ByteSize
          c.declaration.utf8ByteSize [c.coordinateSegment before.utf8ByteSize lead]) :
      Injects c content ⟨before ++ (c.declaration ++ after), .updatedBlock⟩
  | prependedBlock {lead tail : String} (h : c.declares content = false)
      (hp : c.insertionPoint? content c.target.marker = none)
      (hd : c.standaloneBlock = lead ++ quote c.plugin.coordinate ++ tail)
      (hs : (c.classify (c.standaloneBlock ++ content)).segments =
        c.coordinateSegment 0 lead :: (c.classify content).segments.map
          (·.shift c.standaloneBlock.utf8ByteSize)) :
      Injects c content ⟨c.standaloneBlock ++ content, .prependedBlock⟩

section
variable {c : Config} (hb : c.BuiltIn)
include hb

theorem head?_declaration : c.declaration.toList.head? = some '\n' := by
  have hl : declarationLead.toList = '\n' :: declarationLead.toList.tail := by decide +kernel
  rw [hb.declaration, String.toList_append, String.toList_append, hl]
  rfl

variable (hq : c.plugin.Quotable)
include hq

theorem readsAs_declaration :
    ReadsAs {} c.declaration.toList
      (quotingPieces declarationLead.toList c.plugin.coordinate.toList declarationTail.toList) := by
  obtain ⟨hq, hn⟩ := hq.coordinate
  have h := readsAs_quoting plain_declaration.1 plain_declaration.2 hq hn
  simpa [hb.declaration] using h

theorem readsAs_standaloneBlock :
    ReadsAs {} c.standaloneBlock.toList
      (quotingPieces standaloneLead.toList c.plugin.coordinate.toList standaloneTail.toList) := by
  obtain ⟨hq, hn⟩ := hq.coordinate
  have h := readsAs_quoting plain_standalone.1 plain_standalone.2 hq hn
  simpa [hb.standaloneBlock] using h

/-- The declaration starts a new line, so it can be put in wherever the script can be cut. -/
theorem readsBetween_declaration {before after : String} {pieces : List Piece}
    (h : Reads {} (before.toList ++ after.toList) pieces after.toList) :
    ReadsBetween {} before c.declaration after pieces
      (quotingPieces declarationLead.toList c.plugin.coordinate.toList declarationTail.toList) :=
  .ofNewline closes_builtIn.1 h (head?_declaration hb) (readsAs_declaration hb hq)

/-- The declaration quotes the coordinate, and no literal is a comment. -/
theorem showsPlugin : c.ShowsPlugin where
  newline := head?_declaration hb
  visible := by
    have hr := ReadsBetween.front "" (readsAs_declaration hb hq)
    have hv := isSome_findUncommented?_insert closes_builtIn.1 closes_builtIn.2 hr
      (fun _ => isComment_quotingPieces) c.plugin.coordinate_ne_empty
      ⟨declarationLead.toList ++ ['"'], '"' :: declarationTail.toList, by
        simp [hb.declaration, quoted]⟩
    rw [classify, hb.lexicon]
    simpa using hv
  marker := by
    rw [classify, hb.lexicon, hb.target]
    decide +kernel
  lineComment h := by
    rw [hb.lexicon] at h
    exact absurd (h.subset (by simp : ':' ∈ _)) (by decide)
  blockOpen h := by
    rw [hb.lexicon] at h
    exact absurd (h.subset (by simp : ':' ∈ _)) (by decide)
  blockClose := hb.closes.2

/-- Every injection moves the segments of the script as `Injects` says. -/
theorem injects (content : String) : Injects c content (c.inject content) := by
  obtain ⟨hc, hcn⟩ := hb.closes
  rcases inject_cases hc hcn content with ⟨hd, hi⟩ | ⟨hd, before, after, pieces, rfl, hp, hr, hi⟩ |
    ⟨hd, hp, hi⟩
  · rw [hi]
    exact .alreadyPresent hd
  · rw [hb.lexicon] at hr
    have hu := readsBetween_declaration hb hq hr
    rw [hi]
    refine .updatedBlock hd rfl hp hb.declaration ?_ ?_
    · rw [classify, hb.lexicon]
      exact fun s => stop_le_or_le_start closes_builtIn.1 closes_builtIn.2 hr
    · rw [classify, classify, hb.lexicon, of_insert closes_builtIn.1 closes_builtIn.2 hu,
        segmentsFrom_quotingPieces]
      simp [coordinateSegment, quote, byteLength_eq_utf8ByteSize]
  · have hs := readsAs_standaloneBlock hb hq
    rw [hi]
    refine .prependedBlock hd hp hb.standaloneBlock ?_
    rw [classify, classify, hb.lexicon, of_front closes_builtIn.1 closes_builtIn.2 hs,
      segmentsFrom_quotingPieces]
    simp [coordinateSegment, quote, byteLength_eq_utf8ByteSize]

theorem endState_inject (content : String) :
    (c.classify (c.inject content).content).endState = (c.classify content).endState := by
  obtain ⟨hc, hcn⟩ := hb.closes
  rcases inject_cases hc hcn content with ⟨_, hi⟩ | ⟨_, before, after, pieces, rfl, _, hr, hi⟩ |
    ⟨_, _, hi⟩
  · rw [hi]
  · rw [hb.lexicon] at hr
    rw [hi, classify, classify, hb.lexicon, of_insert closes_builtIn.1 closes_builtIn.2
      (readsBetween_declaration hb hq hr)]
  · rw [hi, classify, classify, hb.lexicon, of_front closes_builtIn.1 closes_builtIn.2
      (readsAs_standaloneBlock hb hq)]

/-- After an injection the plugin is declared. -/
theorem declares_inject (content : String) : c.declares (c.inject content).content = true :=
  (showsPlugin hb hq).declares_inject hb.closes.1 content

end

theorem inject_reclassifies_nothing {c : Config} (hb : c.BuiltIn) (hq : c.plugin.Quotable)
    (content : String) :
    Injects c content (c.inject content) ∧
      (c.classify (c.inject content).content).endState = (c.classify content).endState ∧
      c.inject (c.inject content).content = ⟨(c.inject content).content, .alreadyPresent⟩ ∧
      ∀ n, (fun text => (c.inject text).content)^[n + 1] content = (c.inject content).content := by
  have hstable := inject_of_declares (declares_inject hb hq content)
  refine ⟨injects hb hq content, endState_inject hb hq content, hstable, fun n => ?_⟩
  rw [Function.iterate_succ_apply]
  exact Function.iterate_fixed (congrArg Injection.content hstable) n

/-- A lone quote before the marker, and behind it one that only the old line closes. -/
theorem inject_reclassifies_nothing_quotes :
    let content := "it's\nbuildscript \x7b 'a /* b"
    ({} : Config).BuiltIn ∧ ({} : Config).plugin.Quotable ∧
      Injects {} content (({} : Config).inject content) ∧
      (({} : Config).classify (({} : Config).inject content).content).endState = .inBlockComment ∧
      ({} : Config).inject (({} : Config).inject content).content =
        ⟨(({} : Config).inject content).content, .alreadyPresent⟩ := by
  have hb : ({} : Config).BuiltIn := ⟨rfl, rfl, rfl⟩
  have hq : ({} : Config).plugin.Quotable := by
    constructor <;> constructor <;> decide +kernel
  obtain ⟨hi, he, hs, _⟩ := inject_reclassifies_nothing hb hq "it's\nbuildscript \x7b 'a /* b"
  exact ⟨hb, hq, hi, he.trans (by decide +kernel), hs⟩

end Config
end Graft
