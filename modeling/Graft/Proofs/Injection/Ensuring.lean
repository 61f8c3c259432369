import Graft.Proofs.Injection.Appending
import Graft.Proofs.Scan.BehindCode

/-! # Appending a statement once

A statement that starts on a new line and names itself outside comments is visible behind
every script that ends in code, so it is appended to such a script once at most, and the
segments of the script stay as they are.
-/
namespace Graft.Config
open Scan Text

variable {c : Config} {content statement : String}

/-- A statement stands in a script where its text has a place clear of the comments. -/
theorem stands_iff (hn : trim statement ≠ "") :
    c.Stands content statement ↔
      ∃ start, (c.classify content).Admits Kind.isComment (trim statement) content start := by
  refine (Classification.isSome_find?_iff (placed_of c.lexicon content)).trans ?_
  rw [and_iff_right (Lexicon.toList_ne_nil hn)]
  exact exists_congr fun start => (Classification.admits_iff (placed_of _ _) hn).symm

/-- What a statement shows on its own it shows behind code. -/
theorem stands_append (he : (c.classify content).endState = .code)
    (hl : statement.toList.head? = some '\n') (hn : trim statement ≠ "")
    (hs : c.Stands statement statement) : c.Stands (content ++ statement) statement := by
  obtain ⟨start, hs⟩ := (stands_iff hn).mp hs
  exact (stands_iff hn).mpr ⟨content.utf8ByteSize + start, (admits_append_iff he hl hn).mpr hs⟩

/-- Behind code, a statement that shows itself outside comments is appended unless it stands
there already; then the segments stay, its own follow them, and it is not appended again. -/
theorem ensure_appends_once (he : (c.classify content).endState = .code)
    (hl : statement.toList.head? = some '\n') (hn : trim statement ≠ "")
    (hs : ∃ start,
      (c.classify statement).Admits Kind.isComment (trim statement) statement start) :
    (c.ensure? content statement = none ↔
      ∃ start, (c.classify content).Admits Kind.isComment (trim statement) content start) ∧
    (c.ensure? content statement ≠ none →
      c.ensure? content statement = some (content ++ statement) ∧
      (c.classify (content ++ statement)).segments = (c.classify content).segments ++
        (c.classify statement).segments.map (·.shift content.utf8ByteSize) ∧
      c.ensure? (content ++ statement) statement = none) := by
  refine ⟨(ensure?_eq_none_iff hn).trans (stands_iff hn), fun hnew => ?_⟩
  have hmissing : ¬ c.Stands content statement := mt (ensure?_eq_none_iff hn).mpr hnew
  have hbehind : c.classify (content ++ statement) =
      ⟨(c.classify content).segments ++
          (c.classify statement).segments.map (·.shift content.utf8ByteSize),
        (c.classify statement).endState⟩ :=
    of_append he hl
  refine ⟨ensure?_of_not_stands hn hmissing, by rw [hbehind], ensure?_of_stands ?_⟩
  exact stands_append he hl hn ((stands_iff hn).mpr hs)

/-- A script that ends in a line comment with a lone quote, and a statement whose argument holds
the markers of comments. -/
theorem ensure_appends_once_markers :
    let c : Config := {}
    let content := "plugins \x7b\x7d // don't"
    let statement := "\napply from: 'https://host/*.gradle'"
    (c.classify content).endState = .code ∧ statement.toList.head? = some '\n' ∧
      trim statement ≠ "" ∧
      (∃ start,
        (c.classify statement).Admits Kind.isComment (trim statement) statement start) ∧
      c.ensure? content statement = some (content ++ statement) ∧
      (c.classify (content ++ statement)).segments =
        [⟨.lineComment, 11, 19⟩, ⟨.charLiteral, 32, 55⟩] ∧
      c.ensure? (content ++ statement) statement = none := by
  intro c content statement
  have he : (c.classify content).endState = .code := by decide +kernel
  have hl : statement.toList.head? = some '\n' := by decide +kernel
  have hn : trim statement ≠ "" := by decide +kernel
  have hs : c.Stands statement statement := by
    unfold Stands
    decide +kernel
  have hown := (stands_iff hn).mp hs
  have hnew : c.ensure? content statement ≠ none := by decide +kernel
  obtain ⟨happend, hsegments, hagain⟩ := (ensure_appends_once he hl hn hown).2 hnew
  exact ⟨he, hl, hn, hown, happend, hsegments.trans (by decide +kernel), hagain⟩

end Graft.Config
