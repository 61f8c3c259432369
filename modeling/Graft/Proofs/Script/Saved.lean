import Graft.Proofs.Script.Session

/-! # What a save leaves at its path

A save that writes leaves the new content at the path, whatever happened before.  One that
finds nothing to write has only looked at the text that its script was loaded with: what the
path gives may have been changed since by another save, of the same script even, or by an edit.
-/
namespace Graft.Script.Session
open File

variable {F : Type} [DecidableEq F] {fingerprint : ByteArray → F} {s : Session F}
  {actions : List Action} {index : Nat} {script : Script F} {path : String}

/-- What a path gives is changed by one of some actions. -/
def Disturbed (fingerprint : ByteArray → F) (s : Session F) (actions : List Action)
    (path : String) : Prop :=
  ∃ before action after, actions = before ++ action :: after ∧
    ((run fingerprint s before).step fingerprint action).view.readBytes path ≠
      (run fingerprint s before).view.readBytes path

theorem Disturbed.cons {action : Action}
    (h : Disturbed fingerprint (s.step fingerprint action) actions path) :
    Disturbed fingerprint s (action :: actions) path := by
  obtain ⟨before, changing, after, rfl, h⟩ := h
  exact ⟨action :: before, changing, after, rfl, h⟩

/-- A path gives what it gave before unless some action has changed that. -/
theorem readBytes_run_or_disturbed (fingerprint : ByteArray → F) (s : Session F)
    (actions : List Action) (path : String) :
    (run fingerprint s actions).view.readBytes path = s.view.readBytes path ∨
      Disturbed fingerprint s actions path := by
  induction actions generalizing s with
  | nil => exact .inl rfl
  | cons action actions ih =>
    by_cases h : (s.step fingerprint action).view.readBytes path = s.view.readBytes path
    · exact (ih (s.step fingerprint action)).imp (fun hr => hr.trans h) Disturbed.cons
    · exact .inr ⟨[], action, actions, rfl, h⟩

/-- A load leaves the files alone. -/
theorem view_step_load (fingerprint : ByteArray → F) (s : Session F) (path : String) :
    (s.step fingerprint (.load path)).view = s.view := by
  simp only [step]
  split <;> rfl

theorem run_append (fingerprint : ByteArray → F) (s : Session F) (before after : List Action) :
    run fingerprint s (before ++ after) = run fingerprint (run fingerprint s before) after := by
  simp [run]

/-- What a script's path gives has been changed since the load that the script comes from. -/
def DisturbedSince (fingerprint : ByteArray → F) (s : Session F) (actions : List Action)
    (index : Nat) (script : Script F) : Prop :=
  ∃ before later, actions = before ++ .load script.path :: later ∧
    (run fingerprint s before).scripts.length = index ∧
      Script.load fingerprint (run fingerprint s before).view script.path = .ok script ∧
        Disturbed fingerprint (run fingerprint s (before ++ [.load script.path])) later script.path

theorem LoadedFrom.readBytes_or_disturbedSince {bytes : ByteArray}
    (h : LoadedFrom fingerprint s actions index script bytes) :
    (run fingerprint s actions).view.readBytes script.path = .ok bytes ∨
      DisturbedSince fingerprint s actions index script := by
  obtain ⟨before, later, rfl, hi, hb, hl⟩ := h
  have hloaded : (run fingerprint s (before ++ [.load script.path])).view.readBytes script.path =
      .ok bytes := by
    rw [run_append]
    exact (congrArg (·.readBytes script.path) (view_step_load ..)).trans hb
  rw [List.append_cons, run_append]
  refine (readBytes_run_or_disturbed fingerprint _ later script.path).imp
    (fun hr => hr.trans hloaded) fun hd => ?_
  exact ⟨before, later, by simp, hi, hl, hd⟩

/-- Whatever was loaded, saved and edited before, a save that writes leaves its content at the
path.  One that writes nothing was given the loaded text; that is what the path gives unless
some save or edit has changed it since the load.  Other saves fail. -/
theorem readBytes_after_save (v : View)
    (hs : (run fingerprint (start v) actions).scripts[index]? = some script)
    (content : String) :
    let s := run fingerprint (start v) actions
    let after := s.step fingerprint (.save index content)
    match script.save fingerprint s.view content with
    | .ok (.written _ _, _) => after.view.readBytes script.path = .ok content.toUTF8
    | .ok (.unchanged _, _) => content = script.content ∧ after = s ∧
        (after.view.readBytes script.path = .ok content.toUTF8 ∨
          DisturbedSince fingerprint (start v) actions index script)
    | .error _ => content ≠ script.content ∧ after = s := by
  intro s after
  obtain ⟨loaded, hl⟩ := exists_loadedFrom hs
  obtain ⟨hd, rfl, hf⟩ := hl.load_eq
  have hafter : after = s.saved (script.save fingerprint s.view content) := step_save hs content
  rw [hafter]
  have hsaves := saves_save fingerprint s.view hd content
  generalize script.save fingerprint s.view content = result at hsaves ⊢
  cases hsaves with
  | unchanged same =>
    subst same
    exact ⟨rfl, rfl, hl.readBytes_or_disturbedSince⟩
  | unreadable new => exact ⟨new, rfl⟩
  | changed new => exact ⟨new, rfl⟩
  | written new bytes read same parent name root replaced => exact replaced.readBytes

section
attribute [local simp] reach View.resolve View.start Path.isIdle Path.isAbsolute maxLinks
  Node.at? Named.get? bind Except.bind pure Except.pure

/-- A directory with one script. -/
def holding (text : String) : View :=
  ⟨.dir [("b.gradle", .file text.toUTF8)], []⟩

theorem readBytes_holding (text : String) :
    (holding text).readBytes "/b.gradle" = .ok text.toUTF8 := by
  have hp : Path.parts "/b.gradle" = ["", "b.gradle"] := by decide
  simp [View.readBytes, View.node, holding, hp]

theorem replaceFile_holding (old new : String) :
    (holding old).replaceFile "/b.gradle" new.toUTF8 = .ok (holding new).root := by
  have hl : Path.lastName? "/b.gradle" = some "b.gradle" := by decide
  have hp : (Path.parts "/b.gradle").dropLast = [""] := by decide
  have he : (holding old).entry "/b.gradle" = .ok ([], "b.gradle") := by
    simp [View.entry, holding, hl, hp]
  have hat : (holding old).root.at? ([] ++ ["b.gradle"]) = some (.file old.toUTF8) := by
    simp [holding]
  rw [View.replaceFile_of_entry _ he hat rfl]
  rfl

theorem eq_of_at?_holding {text : String} {location : Location} {bytes : ByteArray}
    (h : (holding text).root.at? location = some (.file bytes)) : bytes = text.toUTF8 := by
  cases location with
  | nil => cases h
  | cons name rest =>
    rw [holding, Node.at?_cons, Node.entries_dir] at h
    simp only [Named.get?] at h
    split at h
    · cases rest with
      | nil => simpa [eq_comm] using h
      | cons => simp at h
    · cases h

end

/-- The script that is loaded while the directory holds the text `a`. -/
def heldScript : Script UInt64 :=
  ⟨"/b.gradle", .groovy, "a", shortFingerprint "a".toUTF8⟩

theorem step_load_holding : (start (holding "a")).step shortFingerprint (.load "/b.gradle") =
    ⟨holding "a", [heldScript]⟩ := by
  have hl : Script.load shortFingerprint (holding "a") "/b.gradle" = .ok heldScript :=
    load_eq_ok_iff.mpr ⟨rfl, rfl, readBytes_holding "a", rfl⟩
  simp [step, start, hl]

theorem save_holding_b : heldScript.save shortFingerprint (holding "a") "b" =
    .ok (.written "/b.gradle" 1, (holding "b").root) := by
  have hb := readBytes_holding "a"
  have hr := replaceFile_holding "a" "b"
  simp only [save, heldScript, hb, hr, bind, Except.bind, pure, Except.pure, mapError_ok]
  rw [if_neg (by decide), if_neg (not_not_intro rfl)]
  rfl

theorem step_save_holding :
    step shortFingerprint ⟨holding "a", [heldScript]⟩ (.save 0 "b") =
      ⟨holding "b", [heldScript]⟩ := by
  rw [step_save rfl, save_holding_b]
  rfl

/-- The new text stands in the file after the first save. -/
theorem readBytes_after_save_holding :
    (run shortFingerprint (start (holding "a")) [.load "/b.gradle"]).scripts[0]? =
        some heldScript ∧
      heldScript.save shortFingerprint (holding "a") "b" =
        .ok (.written "/b.gradle" 1, (holding "b").root) ∧
      (step shortFingerprint ⟨holding "a", [heldScript]⟩ (.save 0 "b")).view.readBytes
        "/b.gradle" = .ok "b".toUTF8 := by
  have hrun : run shortFingerprint (start (holding "a")) [.load "/b.gradle"] =
      ⟨holding "a", [heldScript]⟩ := step_load_holding
  have hs : (run shortFingerprint (start (holding "a")) [.load "/b.gradle"]).scripts[0]? =
      some heldScript := by
    rw [hrun]
    rfl
  have h := readBytes_after_save (holding "a") hs "b"
  rw [hrun] at h
  dsimp only at h
  rw [save_holding_b] at h
  exact ⟨hs, save_holding_b, h⟩

theorem save_holding_a : heldScript.save shortFingerprint (holding "b") "a" =
    .ok (.unchanged "/b.gradle", (holding "b").root) := by
  simp only [save, heldScript, if_true]
  rfl

/-- A script is saved with a new text and then with the one it was loaded with. -/
def takingBack : List Action :=
  [.load "/b.gradle", .save 0 "b", .save 0 "a"]

theorem run_takingBack (count : Nat) (h : 2 ≤ count) :
    run shortFingerprint (start (holding "a")) (takingBack.take count) =
      ⟨holding "b", [heldScript]⟩ := by
  have hsaved : run shortFingerprint (start (holding "a")) [.load "/b.gradle", .save 0 "b"] =
      ⟨holding "b", [heldScript]⟩ := by
    rw [run, List.foldl_cons, step_load_holding, List.foldl_cons, step_save_holding, List.foldl_nil]
  obtain rfl | h := Nat.eq_or_lt_of_le h
  · exact hsaved
  · have happend : takingBack = [.load "/b.gradle", .save 0 "b"] ++ [.save 0 "a"] := rfl
    rw [List.take_of_length_le h, happend, run_append, hsaved, run, List.foldl_cons,
      step_save rfl, save_holding_a]
    rfl

theorem collisionFree_takingBack :
    CollisionFree shortFingerprint (start (holding "a")) takingBack := by
  have hocc (bytes) (h : Occurs shortFingerprint (start (holding "a")) takingBack bytes) :
      bytes = "a".toUTF8 ∨ bytes = "b".toUTF8 := by
    obtain ⟨done, location, hd, hf⟩ := h
    obtain ⟨count, rfl⟩ : ∃ count, done = takingBack.take count :=
      ⟨done.length, List.prefix_iff_eq_take.mp hd⟩
    match count with
    | 0 => exact .inl (eq_of_at?_holding hf)
    | 1 =>
      rw [takingBack, List.take_succ_cons, List.take_zero, run, List.foldl_cons,
        step_load_holding] at hf
      exact .inl (eq_of_at?_holding hf)
    | count + 2 =>
      rw [run_takingBack _ (by omega)] at hf
      exact .inr (eq_of_at?_holding hf)
  have hne : shortFingerprint "a".toUTF8 ≠ shortFingerprint "b".toUTF8 := by decide
  intro a b ha hb heq
  rcases hocc a ha with rfl | rfl <;> rcases hocc b hb with rfl | rfl
  · rfl
  · exact absurd heq hne
  · exact absurd heq.symm hne
  · rfl

/-- The second save succeeds and leaves the text of the first one at the path. -/
theorem unchanged_over_saved_text :
    let s := run shortFingerprint (start (holding "a")) (takingBack.take 2)
    CollisionFree shortFingerprint (start (holding "a")) takingBack ∧
      s.scripts[0]? = some heldScript ∧
      heldScript.save shortFingerprint s.view "a" =
        .ok (.unchanged "/b.gradle", (holding "b").root) ∧
      (s.step shortFingerprint (.save 0 "a")).view.readBytes heldScript.path = .ok "b".toUTF8 ∧
      "b".toUTF8 ≠ "a".toUTF8 := by
  intro s
  have hs : s = ⟨holding "b", [heldScript]⟩ := run_takingBack 2 (by decide)
  rw [hs]
  refine ⟨collisionFree_takingBack, rfl, save_holding_a, ?_, by decide⟩
  rw [step_save rfl, save_holding_a]
  exact readBytes_holding "b"

end Graft.Script.Session
