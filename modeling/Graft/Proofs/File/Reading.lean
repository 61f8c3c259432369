import Graft.Proofs.File.View
import Graft.Proofs.Text.Utf8

/-! # What reading a path comes to

A path is read as a text exactly when it leads to a file that holds that text in UTF-8.  Any
other path is refused: it leads nowhere, to a directory, or to a file that holds no text.
-/
namespace Graft.File.View

/-- A path leads to a file with the given bytes. -/
def LeadsToFile (v : View) (path : String) (bytes : ByteArray) : Prop :=
  ∃ location, v.Leads path location ∧ v.root.at? location = some (.file bytes)

/-- What is to be said when a path is read as a text. -/
inductive Reads (v : View) (path : String) : Except Error String → Prop
  | text {text : String} (file : v.LeadsToFile path text.toUTF8) : Reads v path (.ok text)
  | notText {bytes : ByteArray} (file : v.LeadsToFile path bytes)
      (other : ∀ text : String, bytes ≠ text.toUTF8) : Reads v path (.error .notText)
  | isDirectory {location : Location} (leads : v.Leads path location)
      (dir : v.root.IsDirAt location) : Reads v path (.error .isDirectory)
  | nowhere {cause : Error} (unresolved : ∀ location, ¬ v.Leads path location)
      (fails : v.resolve path = .error cause) : Reads v path (.error cause)

variable {v other : View} {path : String} {bytes : ByteArray} {result : Except Error String}

theorem readBytes_eq_ok_iff_leadsToFile :
    v.readBytes path = .ok bytes ↔ v.LeadsToFile path bytes := by
  rw [readBytes_eq_ok_iff]
  apply exists_congr
  intro location
  rw [resolve_eq_ok_iff_leads]

theorem isFile_iff : v.isFile path = true ↔ ∃ bytes, v.LeadsToFile path bytes := by
  simp only [← readBytes_eq_ok_iff_leadsToFile, isFile, readBytes]
  cases v.node path with
  | error cause => simp [bind, Except.bind]
  | ok node => cases node <;> simp [Node.isFile, bind, Except.bind, pure, Except.pure]

theorem readText_congr (h : other.readBytes path = v.readBytes path) :
    other.readText path = v.readText path := by
  simp only [readText, h]

theorem readText_of_leadsToFile (h : v.LeadsToFile path bytes) :
    v.readText path =
      match String.fromUTF8? bytes with
      | some text => .ok text
      | none => .error .notText := by
  simp only [readText, readBytes_eq_ok_iff_leadsToFile.mpr h, bind, Except.bind]
  cases String.fromUTF8? bytes <;> rfl

theorem readText_of_isDirAt {location : Location} (h : v.Leads path location)
    (hd : v.root.IsDirAt location) : v.readText path = .error .isDirectory := by
  obtain ⟨entries, he⟩ := Node.isDirAt_iff.mp hd
  simp only [readText, readBytes, node, h.resolve_eq, he, bind, Except.bind]
  rfl

theorem readText_of_resolve_error {cause : Error} (h : v.resolve path = .error cause) :
    v.readText path = .error cause := by
  simp only [readText, readBytes, node, h, bind, Except.bind]

theorem reads_readText (v : View) (path : String) : v.Reads path (v.readText path) := by
  cases hr : v.resolve path with
  | error cause =>
    rw [readText_of_resolve_error hr]
    apply Reads.nowhere _ hr
    intro location hl
    rw [hl.resolve_eq] at hr
    cases hr
  | ok location =>
    have hl : v.Leads path location := resolve_eq_ok_iff_leads.mp hr
    obtain ⟨node, hn, hlink⟩ := Node.isRealAt_iff.mp hl.isRealAt
    cases node with
    | file bytes =>
      have hfile : v.LeadsToFile path bytes := ⟨location, hl, hn⟩
      rw [readText_of_leadsToFile hfile]
      cases ht : String.fromUTF8? bytes with
      | some text => exact .text (Text.fromUTF8?_eq_some_iff.mp ht ▸ hfile)
      | none =>
        apply Reads.notText hfile
        intro text he
        simp [Text.fromUTF8?_eq_some_iff.mpr he] at ht
    | link target => exact absurd rfl (hlink target)
    | dir entries =>
      have hd : v.root.IsDirAt location := Node.isDirAt_iff.mpr ⟨entries, hn⟩
      rw [readText_of_isDirAt hl hd]
      exact .isDirectory hl hd

/-- Reading comes to one thing. -/
theorem readText_eq_iff_reads : v.readText path = result ↔ v.Reads path result := by
  constructor
  · rintro rfl
    exact reads_readText v path
  · intro h
    cases h with
    | text file => rw [readText_of_leadsToFile file, Text.fromUTF8?_eq_some_iff.mpr rfl]
    | @notText bytes file other =>
      have hnone : String.fromUTF8? bytes = none := by
        rw [Option.eq_none_iff_forall_not_mem]
        intro text ht
        exact other text (Text.fromUTF8?_eq_some_iff.mp ht)
      rw [readText_of_leadsToFile file, hnone]
    | isDirectory leads dir => exact readText_of_isDirAt leads dir
    | nowhere _ fails => exact readText_of_resolve_error fails

end Graft.File.View
