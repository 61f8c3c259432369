import Graft.Proofs.Script.Saving

/-! # Sessions

In a session, scripts are loaded and saved while others edit the same files.  Each load, save
and edit is one step.  A save writes only where the file still holds the bytes that the script
was loaded from, provided that no two byte strings of the session share a fingerprint.
-/
namespace Graft.Script
open File

/-- The files as they are by now, and the scripts in the order in which they were loaded. -/
structure Session (F : Type) where
  view : View
  scripts : List (Script F)

/-- An edit by others may leave any tree behind. -/
inductive Action
  | load (path : String)
  | save (index : Nat) (content : String)
  | edit (root : Node)

namespace Session

variable {F : Type}

/-- A session in which nothing has been loaded. -/
def start (v : View) : Session F := ⟨v, []⟩

/-- The session after a save. -/
def saved (s : Session F) : Except Error (SaveResult × Node) → Session F
  | .ok (_, root) => { s with view := { s.view with root } }
  | .error _ => s

variable [DecidableEq F] (fingerprint : ByteArray → F)

def step (s : Session F) : Action → Session F
  | .load path =>
    match Script.load fingerprint s.view path with
    | .ok script => { s with scripts := s.scripts ++ [script] }
    | .error _ => s
  | .save index content =>
    match s.scripts[index]? with
    | some script => s.saved (script.save fingerprint s.view content)
    | none => s
  | .edit root => { s with view := { s.view with root } }

def run (s : Session F) (actions : List Action) : Session F :=
  actions.foldl (step fingerprint) s

/-- A file with these bytes is somewhere in the tree at some point of the session. -/
def Occurs (s : Session F) (actions : List Action) (bytes : ByteArray) : Prop :=
  ∃ done location, done <+: actions ∧
    (run fingerprint s done).view.root.at? location = some (.file bytes)

/-- No two byte strings that occur in a session have the same fingerprint. -/
def CollisionFree (s : Session F) (actions : List Action) : Prop :=
  ∀ a b, Occurs fingerprint s actions a → Occurs fingerprint s actions b →
    fingerprint a = fingerprint b → a = b

/-- The script with a number is what a load of the session made of these bytes. -/
def LoadedFrom (s : Session F) (actions : List Action) (index : Nat) (script : Script F)
    (bytes : ByteArray) : Prop :=
  ∃ before after, actions = before ++ .load script.path :: after ∧
    (run fingerprint s before).scripts.length = index ∧
      (run fingerprint s before).view.readBytes script.path = .ok bytes ∧
        Script.load fingerprint (run fingerprint s before).view script.path = .ok script

variable {fingerprint} {s : Session F} {actions : List Action} {index : Nat}
  {script : Script F} {bytes : ByteArray}

omit [DecidableEq F] in
@[simp] theorem scripts_saved (s : Session F) (result : Except Error (SaveResult × Node)) :
    (s.saved result).scripts = s.scripts := by
  rcases result with _ | ⟨_, _⟩ <;> rfl

/-- A step leaves the scripts as they are, or loads one more. -/
theorem scripts_step (fingerprint : ByteArray → F) (s : Session F) (action : Action) :
    (s.step fingerprint action).scripts = s.scripts ∨
      ∃ script, action = .load script.path ∧
        Script.load fingerprint s.view script.path = .ok script ∧
          (s.step fingerprint action).scripts = s.scripts ++ [script] := by
  cases action with
  | load path =>
    cases hl : Script.load fingerprint s.view path with
    | error e => exact .inl (by simp [step, hl])
    | ok script =>
      obtain rfl := (load_eq_ok_iff.mp hl).1
      exact .inr ⟨script, rfl, hl, by simp [step, hl]⟩
  | save index content =>
    left
    simp only [step]
    split
    · exact scripts_saved _ _
    · rfl
  | edit root => exact .inl rfl

theorem LoadedFrom.cons {action : Action}
    (h : LoadedFrom fingerprint (s.step fingerprint action) actions index script bytes) :
    LoadedFrom fingerprint s (action :: actions) index script bytes := by
  obtain ⟨before, after, rfl, h⟩ := h
  exact ⟨action :: before, after, rfl, h⟩

theorem loadedFrom_or_getElem?_scripts
    (h : (run fingerprint s actions).scripts[index]? = some script) :
    s.scripts[index]? = some script ∨
      ∃ bytes, LoadedFrom fingerprint s actions index script bytes := by
  induction actions generalizing s with
  | nil => exact .inl h
  | cons action actions ih =>
    obtain hs | ⟨bytes, hs⟩ := ih h
    · obtain hold | ⟨loaded, rfl, hl, hnew⟩ := scripts_step fingerprint s action
      · exact .inl (hold ▸ hs)
      · rw [hnew, List.getElem?_append] at hs
        split at hs
        · exact .inl hs
        · next hi =>
          rw [List.getElem?_singleton] at hs
          split at hs
          · obtain rfl := Option.some.inj hs
            obtain ⟨-, -, hb, -⟩ := load_eq_ok_iff.mp hl
            exact .inr ⟨_, [], actions, rfl, by simp only [run, List.foldl_nil]; omega, hb, hl⟩
          · cases hs
    · exact .inr ⟨bytes, hs.cons⟩

/-- Every script of a session comes from one of its loads. -/
theorem exists_loadedFrom {v : View}
    (h : (run fingerprint (start v) actions).scripts[index]? = some script) :
    ∃ bytes, LoadedFrom fingerprint (start v) actions index script bytes := by
  obtain hs | hs := loadedFrom_or_getElem?_scripts h
  · simp [start] at hs
  · exact hs

theorem step_save (hs : s.scripts[index]? = some script) (content : String) :
    s.step fingerprint (.save index content) =
      s.saved (script.save fingerprint s.view content) := by
  simp only [step, hs]

theorem LoadedFrom.load_eq (h : LoadedFrom fingerprint s actions index script bytes) :
    Dialect.ofPath script.path = .ok script.dialect ∧ bytes = script.content.toUTF8 ∧
      script.fingerprint = fingerprint bytes := by
  obtain ⟨before, after, -, -, hb, hl⟩ := h
  obtain ⟨-, hd, hb', hf⟩ := load_eq_ok_iff.mp hl
  obtain rfl : bytes = script.content.toUTF8 := Except.ok.inj (hb.symm.trans hb')
  exact ⟨hd, rfl, hf⟩

theorem LoadedFrom.occurs (h : LoadedFrom fingerprint s actions index script bytes) :
    Occurs fingerprint s actions bytes := by
  obtain ⟨before, after, rfl, -, hb, -⟩ := h
  obtain ⟨location, hf⟩ := View.exists_file_of_readBytes hb
  exact ⟨before, location, List.prefix_append .., hf⟩

/-- What has become of a session when a script's new content replaced the bytes it was loaded
from.  At the path there is the file itself, also where a link led to it before; that link's
target and every other node are as they were. -/
structure Overwritten (fingerprint : ByteArray → F) (s : Session F) (script : Script F)
    (loaded : ByteArray) (content : String) (after : Session F) : Prop where
  read : s.view.readBytes script.path = .ok loaded
  file : after.view.nodeItself script.path = .ok (.file content.toUTF8)
  load : Script.load fingerprint after.view script.path =
    .ok { script with content, fingerprint := fingerprint content.toUTF8 }
  others : ∃ parent name, s.view.entry script.path = .ok (parent, name) ∧
    Node.SameBut (parent ++ [name]) after.view.root s.view.root ∧
      ∀ location, s.view.resolve script.path = .ok location → location ≠ parent ++ [name] →
        after.view.root.at? location = some (.file loaded)

/-- Whatever was loaded, saved and edited before, a save writes only where the bytes at its
path are those its script was loaded from.  Otherwise nothing changes: the content is the
loaded one, or the path does not give those bytes any more. -/
theorem save_loses_no_update (v : View) (hc : CollisionFree fingerprint (start v) actions)
    (hs : (run fingerprint (start v) actions).scripts[index]? = some script)
    (content : String) :
    let s := run fingerprint (start v) actions
    let after := s.step fingerprint (.save index content)
    ∃ loaded, LoadedFrom fingerprint (start v) actions index script loaded ∧
      match script.save fingerprint s.view content with
      | .ok (.written path size, _) =>
        path = script.path ∧ size = content.utf8ByteSize ∧
          Overwritten fingerprint s script loaded content after
      | .ok (.unchanged path, _) => path = script.path ∧ content = script.content ∧ after = s
      | .error _ => s.view.readBytes script.path ≠ .ok loaded ∧ after = s := by
  intro s after
  obtain ⟨loaded, hl⟩ := exists_loadedFrom hs
  obtain ⟨hd, -, hf⟩ := hl.load_eq
  have hafter : after = s.saved (script.save fingerprint s.view content) := step_save hs content
  refine ⟨loaded, hl, ?_⟩
  rw [hafter]
  have hsaves := saves_save fingerprint s.view hd content
  generalize script.save fingerprint s.view content = result at hsaves ⊢
  cases hsaves with
  | unchanged same => exact ⟨rfl, same, rfl⟩
  | unreadable new cause read => exact ⟨by simp [read], rfl⟩
  | changed new bytes read differs =>
    refine ⟨fun h => differs ?_, rfl⟩
    rw [hf, Except.ok.inj (read.symm.trans h)]
  | written new bytes read same parent name root replaced =>
    have hocc : Occurs fingerprint (start v) actions bytes := by
      obtain ⟨location, hb⟩ := View.exists_file_of_readBytes read
      exact ⟨actions, location, List.prefix_rfl, hb⟩
    obtain rfl : bytes = loaded := hc _ _ hocc hl.occurs (same.trans hf)
    refine ⟨rfl, rfl, read, replaced.nodeItself, ?_, parent, name, replaced.before,
      replaced.others, ?_⟩
    · exact load_eq_ok_iff.mpr ⟨rfl, hd, replaced.readBytes, rfl⟩
    · intro location hr hne
      obtain ⟨found, hfound, hfile⟩ := View.readBytes_eq_ok_iff.mp read
      obtain rfl : found = location := Except.ok.inj (hfound.symm.trans hr)
      rw [← Node.labelAt?_eq_label_iff (.file bytes) rfl] at hfile ⊢
      exact (replaced.others found hne).trans hfile

/-- The xxh3 fingerprint of one to three bytes. -/
def shortFingerprint (bytes : ByteArray) : UInt64 :=
  let first := (bytes.get! 0).toUInt64
  let middle := (bytes.get! (bytes.size / 2)).toUInt64
  let last := (bytes.get! (bytes.size - 1)).toUInt64
  let combined := first <<< 16 ||| middle <<< 24 ||| last ||| bytes.size.toUInt64 <<< 8
  let a := combined ^^^ 0x87275a9b
  let b := (a ^^^ a >>> 33) * 0xC2B2AE3D27D4EB4F
  let c := (b ^^^ b >>> 29) * 0x165667B19E3779F9
  c ^^^ c >>> 32

/-- A tree in which a script's path is a link to the file that holds it. -/
def linked : View :=
  ⟨.dir [("b.gradle", .link "c.gradle"), ("c.gradle", .file "a".toUTF8)], []⟩

def linkedScript : Script UInt64 :=
  ⟨"/b.gradle", .groovy, "a", shortFingerprint "a".toUTF8⟩

theorem readBytes_linked : linked.readBytes "/b.gradle" = .ok "a".toUTF8 := by
  have hd : linked.root.IsDirAt [] := ⟨["b.gradle", "c.gradle"], rfl⟩
  have hp : Path.parts "/b.gradle" = ["", "b.gradle"] := by decide
  have ht : Path.parts "c.gradle" ++ [] = ["c.gradle"] := by decide
  have hs : linkStart (linked.start "/b.gradle") "c.gradle" = [] := by decide
  have hf : linked.root.at? ["c.gradle"] = some (.file "a".toUTF8) := rfl
  have hr : linked.root.IsRealAt ["c.gradle"] := Node.isRealAt_of_file hf
  refine View.readBytes_eq_ok_iff.mpr
    ⟨["c.gradle"], View.resolve_eq_ok_iff.mpr ⟨by decide, ?_⟩, hf⟩
  rw [hp]
  refine .idle hd (by decide) (.follow hd (by decide) rfl ?_)
  rw [ht, hs]
  exact .enter hd (by decide) hr (.done _ _)

theorem run_linked :
    run shortFingerprint (start linked) [.load "/b.gradle"] = ⟨linked, [linkedScript]⟩ := by
  have hl : Script.load shortFingerprint linked "/b.gradle" = .ok linkedScript :=
    load_eq_ok_iff.mpr ⟨rfl, rfl, readBytes_linked, rfl⟩
  simp [run, step, start, hl]

theorem eq_of_at?_linked {location : Location} {bytes : ByteArray}
    (h : linked.root.at? location = some (.file bytes)) : bytes = "a".toUTF8 := by
  cases location with
  | nil => cases h
  | cons name rest =>
    rw [linked, Node.at?_cons, Node.entries_dir] at h
    simp only [Named.get?] at h
    split at h
    · cases rest <;> simp [Node.at?_cons, Node.entries, Named.get?] at h
    · split at h
      · cases rest with
        | nil => simpa [eq_comm] using h
        | cons => simp [Node.at?_cons, Node.entries, Named.get?] at h
      · cases h

theorem collisionFree_linked :
    CollisionFree shortFingerprint (start linked) [.load "/b.gradle"] := by
  have hocc (bytes) (h : Occurs shortFingerprint (start linked) [.load "/b.gradle"] bytes) :
      bytes = "a".toUTF8 := by
    obtain ⟨done, location, hd, hf⟩ := h
    obtain rfl | ⟨rest, rfl, hr⟩ := List.prefix_cons_iff.mp hd
    · exact eq_of_at?_linked hf
    · obtain rfl := List.prefix_nil.mp hr
      rw [run_linked] at hf
      exact eq_of_at?_linked hf
  intro a b ha hb _
  rw [hocc a ha, hocc b hb]

/-- Saving replaces a link by a file and leaves the file behind the link alone. -/
theorem save_loses_no_update_through_link :
    CollisionFree shortFingerprint (start linked) [.load "/b.gradle"] ∧
      (run shortFingerprint (start linked) [.load "/b.gradle"]).scripts[0]? =
        some linkedScript ∧
      Overwritten shortFingerprint ⟨linked, [linkedScript]⟩ linkedScript "a".toUTF8 "abc"
        (step shortFingerprint ⟨linked, [linkedScript]⟩ (.save 0 "abc")) := by
  have hs : (run shortFingerprint (start linked) [.load "/b.gradle"]).scripts[0]? =
      some linkedScript := by
    rw [run_linked]
    rfl
  refine ⟨collisionFree_linked, hs, ?_⟩
  obtain ⟨loaded, -, h⟩ := save_loses_no_update linked collisionFree_linked hs "abc"
  rw [run_linked] at h
  have hsaves : Saves shortFingerprint linked linkedScript "abc" _ :=
    saves_save shortFingerprint linked rfl "abc"
  generalize linkedScript.save shortFingerprint linked "abc" = result at h hsaves
  cases hsaves with
  | unchanged same => exact absurd same (by decide)
  | unreadable _ cause read => cases readBytes_linked.symm.trans read
  | changed _ bytes read differs =>
    cases readBytes_linked.symm.trans read
    exact absurd rfl differs
  | written _ bytes read =>
    obtain ⟨-, -, h⟩ := h
    obtain rfl : loaded = "a".toUTF8 := Except.ok.inj (h.read.symm.trans readBytes_linked)
    exact h

end Session
end Graft.Script
