import Graft.File.Resolution
import Graft.Proofs.File.Path
import Graft.Proofs.File.Tree

/-! # Walks through a tree

A walk is what the resolution of a path goes through when it arrives: one constructor for
each way in which a part is taken.  A walk reads nothing but labels, which is why a change
that it does not pass leaves it as it is.
-/
namespace Graft.File

/-- The directory in which a link's target starts. -/
def linkStart (here : Location) (target : String) : Location :=
  if Path.isAbsolute target then [] else here

inductive Walk (root : Node) : Nat → Location → List String → Location → Prop
  | done (links : Nat) (here : Location) : Walk root links here [] here
  | idle {links : Nat} {here there : Location} {part : String} {rest : List String}
      (dir : root.IsDirAt here) (idle : Path.isIdle part = true)
      (walk : Walk root links here rest there) : Walk root links here (part :: rest) there
  | up {links : Nat} {here there : Location} {rest : List String}
      (dir : root.IsDirAt here) (walk : Walk root links here.dropLast rest there) :
      Walk root links here (".." :: rest) there
  | follow {links : Nat} {here there : Location} {part target : String} {rest : List String}
      (dir : root.IsDirAt here) (name : Path.IsName part)
      (link : root.labelAt? (here ++ [part]) = some (.link target))
      (walk : Walk root links (linkStart here target) (Path.parts target ++ rest) there) :
      Walk root (links + 1) here (part :: rest) there
  | enter {links : Nat} {here there : Location} {part : String} {rest : List String}
      (dir : root.IsDirAt here) (name : Path.IsName part)
      (real : root.IsRealAt (here ++ [part]))
      (walk : Walk root links (here ++ [part]) rest there) :
      Walk root links here (part :: rest) there

variable {root : Node} {links : Nat} {here there : Location} {parts : List String}

namespace Walk
open Node

theorem of_reach (h : reach root links here parts = .ok (there, [])) :
    Walk root links here parts there := by
  fun_induction reach root links here parts with
  | case1 links here =>
    obtain rfl : here = there := by simpa using h
    exact .done links here
  | case2 links here part rest entries hd hi ih =>
    exact .idle (isDirAt_iff.mpr ⟨entries, hd⟩) hi (ih h)
  | case3 links here rest entries hd hi ih =>
    exact .up (isDirAt_iff.mpr ⟨entries, hd⟩) (ih h)
  | case4 | case5 | case8 => simp at h
  | case6 here part rest entries hd hi hu target hg links ih =>
    have hl := (labelAt?_eq_label_iff (.link target) rfl).mpr
      ((at?_append_singleton hd part).trans hg)
    exact .follow (isDirAt_iff.mpr ⟨entries, hd⟩) ⟨by simpa using hi, hu⟩ hl (ih h)
  | case7 links here part rest entries hd hi hu node hn hg ih =>
    have hr := isRealAt_iff.mpr ⟨node, (at?_append_singleton hd part).trans hg, hn⟩
    exact .enter (isDirAt_iff.mpr ⟨entries, hd⟩) ⟨by simpa using hi, hu⟩ hr (ih h)

theorem reach_eq (h : Walk root links here parts there) :
    reach root links here parts = .ok (there, []) := by
  induction h with
  | done => rw [reach]
  | idle dir idle _ ih =>
    obtain ⟨entries, hd⟩ := isDirAt_iff.mp dir
    rw [reach, hd]
    simp [idle, ih]
  | up dir _ ih =>
    obtain ⟨entries, hd⟩ := isDirAt_iff.mp dir
    have hi : Path.isIdle ".." = false := by decide
    rw [reach, hd]
    simp [hi, ih]
  | @follow _ _ _ part target _ dir name link _ ih =>
    obtain ⟨entries, hd⟩ := isDirAt_iff.mp dir
    have hg := (labelAt?_eq_label_iff (.link target) rfl).mp link
    rw [at?_append_singleton hd] at hg
    rw [reach, hd]
    simpa [name.1, name.2, hg, linkStart] using ih
  | @enter _ _ _ part _ dir name real _ ih =>
    obtain ⟨entries, hd⟩ := isDirAt_iff.mp dir
    obtain ⟨node, hn, hl⟩ := isRealAt_iff.mp real
    rw [at?_append_singleton hd] at hn
    rw [reach, hd]
    cases node with
    | link target => exact (hl target rfl).elim
    | file | dir => simp [name.1, name.2, hn, ih]

theorem mono {more : Nat} (h : Walk root links here parts there) (hm : links ≤ more) :
    Walk root more here parts there := by
  induction h generalizing more with
  | done => exact .done more _
  | idle dir idle _ ih => exact .idle dir idle (ih hm)
  | up dir _ ih => exact .up dir (ih hm)
  | follow dir name link _ ih =>
    obtain ⟨more, rfl⟩ := Nat.exists_eq_add_of_lt (Nat.lt_of_succ_le hm)
    exact .follow dir name link (ih (by omega))
  | enter dir name real _ ih => exact .enter dir name real (ih hm)

theorem append {between : Location} {second : List String}
    (first : Walk root links here parts between) (last : Walk root 0 between second there) :
    Walk root links here (parts ++ second) there := by
  induction first with
  | done => exact last.mono (Nat.zero_le _)
  | idle dir idle _ ih => exact .idle dir idle (ih last)
  | up dir _ ih => exact .up dir (ih last)
  | follow dir name link _ ih => exact .follow dir name link (by simpa using ih last)
  | enter dir name real _ ih => exact .enter dir name real (ih last)

/-- A walk goes through wherever a first part of the path leads. -/
theorem split {first second : List String} (h : Walk root links here (first ++ second) there) :
    ∃ between, Walk root links here first between ∧ Walk root links between second there := by
  generalize hp : first ++ second = parts at h
  induction h generalizing first with
  | done links here =>
    obtain ⟨rfl, rfl⟩ := List.append_eq_nil_iff.mp hp
    exact ⟨here, .done links here, .done links here⟩
  | @idle _ here _ _ _ dir idle walk ih =>
    obtain ⟨rfl, rfl⟩ | ⟨first, rfl, hr⟩ := List.append_eq_cons_iff.mp hp
    · exact ⟨here, .done _ here, .idle dir idle walk⟩
    · obtain ⟨between, hf, hs⟩ := ih hr.symm
      exact ⟨between, .idle dir idle hf, hs⟩
  | @up _ here _ _ dir walk ih =>
    obtain ⟨rfl, rfl⟩ | ⟨first, rfl, hr⟩ := List.append_eq_cons_iff.mp hp
    · exact ⟨here, .done _ here, .up dir walk⟩
    · obtain ⟨between, hf, hs⟩ := ih hr.symm
      exact ⟨between, .up dir hf, hs⟩
  | @follow _ here _ _ _ _ dir name link walk ih =>
    obtain ⟨rfl, rfl⟩ | ⟨first, rfl, hr⟩ := List.append_eq_cons_iff.mp hp
    · exact ⟨here, .done _ here, .follow dir name link walk⟩
    · obtain ⟨between, hf, hs⟩ := ih (by rw [hr, List.append_assoc])
      exact ⟨between, .follow dir name link hf, hs.mono (Nat.le_succ _)⟩
  | @enter _ here _ _ _ dir name real walk ih =>
    obtain ⟨rfl, rfl⟩ | ⟨first, rfl, hr⟩ := List.append_eq_cons_iff.mp hp
    · exact ⟨here, .done _ here, .enter dir name real walk⟩
    · obtain ⟨between, hf, hs⟩ := ih hr.symm
      exact ⟨between, .enter dir name real hf, hs⟩

/-- However many links may be followed, a path leads to one place. -/
theorem unique {more : Nat} {other : Location} (h : Walk root links here parts there)
    (h' : Walk root more here parts other) : there = other := by
  have hl := (h.mono (Nat.le_max_left links more)).reach_eq
  have hr := (h'.mono (Nat.le_max_right links more)).reach_eq
  simpa [hl] using hr

theorem isDirAt_start (h : Walk root links here parts there) (hp : parts ≠ []) :
    root.IsDirAt here := by
  cases h with
  | done => exact (hp rfl).elim
  | idle dir => exact dir
  | up dir => exact dir
  | follow dir => exact dir
  | enter dir => exact dir

/-- A part that leads to where it starts ends a walk there. -/
theorem eq_of_isIdle {part : String} (h : Walk root links here [part] there)
    (hi : Path.isIdle part = true) : there = here := by
  cases h with
  | idle _ _ walk =>
    cases walk
    rfl
  | up => exact absurd hi (by decide)
  | follow _ name => simp [name.1] at hi
  | enter _ name => simp [name.1] at hi

theorem isRealAt (h : Walk root links here parts there) (hr : root.IsRealAt here) :
    root.IsRealAt there := by
  induction h with
  | done => exact hr
  | idle _ _ _ ih => exact ih hr
  | up dir _ ih => exact ih (dir.above (List.dropLast_prefix _)).isRealAt
  | @follow _ here _ _ target _ dir _ _ _ ih =>
    have hs : linkStart here target <+: here := by
      unfold linkStart
      split
      · exact List.nil_prefix
      · exact List.prefix_rfl
    exact ih (dir.above hs).isRealAt
  | enter _ _ real _ ih => exact ih real

/-- Only names that stand between slashes are entered. -/
theorem proper (h : Walk root links here parts there) (hh : here.Proper)
    (hp : ∀ part ∈ parts, '/' ∉ part.toList) : there.Proper := by
  induction h with
  | done => exact hh
  | idle _ _ _ ih => exact ih hh fun part hm => hp part (List.mem_cons_of_mem _ hm)
  | up _ _ ih => exact ih hh.dropLast fun part hm => hp part (List.mem_cons_of_mem _ hm)
  | @follow _ here _ _ target _ _ _ _ _ ih =>
    refine ih ?_ fun part hm => ?_
    · unfold linkStart
      split
      · exact fun _ hm => absurd hm List.not_mem_nil
      · exact hh
    · rcases List.mem_append.mp hm with hm | hm
      · exact Path.slash_notMem_of_mem_parts hm
      · exact hp part (List.mem_cons_of_mem _ hm)
  | enter _ name _ _ ih =>
    exact ih (hh.append_singleton name (hp _ List.mem_cons_self))
      fun part hm => hp part (List.mem_cons_of_mem _ hm)

/-- Names of nodes that are no links lead straight to a node below. -/
theorem straight {names : List String} (hn : ∀ name ∈ names, Path.IsName name)
    (hr : root.IsRealAt (here ++ names)) : Walk root 0 here names (here ++ names) := by
  induction names generalizing here with
  | nil => simpa using Walk.done 0 here
  | cons name names ih =>
    rw [List.append_cons] at hr ⊢
    have hreal : root.IsRealAt (here ++ [name]) := hr.of_append
    have hdir : root.IsDirAt here := .of_append hreal (by simp)
    exact .enter hdir (hn name List.mem_cons_self) hreal
      (ih (fun other ho => hn other (List.mem_cons_of_mem name ho)) hr)

/-- A walk stays as it is when one entry changes that is no directory, unless it goes through
that entry. -/
theorem transfer {other : Node} {dir : Location} {name : String}
    (h : Walk root links here parts there) (hs : SameBut (dir ++ [name]) root other)
    (hd : ¬ root.IsDirAt (dir ++ [name]))
    (hn : ∀ links rest, ¬ Walk root links dir (name :: rest) there) :
    Walk other links here parts there := by
  induction h with
  | done links here => exact .done links here
  | idle hdir idle _ ih => exact .idle (hdir.of_sameBut hs hd) idle (ih hn)
  | up hdir _ ih => exact .up (hdir.of_sameBut hs hd) (ih hn)
  | follow hdir hname link walk ih =>
    refine .follow (hdir.of_sameBut hs hd) hname ?_ (ih hn)
    rw [← hs _ fun he => ?_, link]
    obtain ⟨rfl, he⟩ := List.append_inj' he rfl
    obtain rfl : _ = name := by simpa using he
    exact hn _ _ (.follow hdir hname link walk)
  | enter hdir hname real walk ih =>
    obtain ⟨label, hl, hlink⟩ := real
    refine .enter (hdir.of_sameBut hs hd) hname ⟨label, ?_, hlink⟩ (ih hn)
    rw [← hs _ fun he => ?_, hl]
    obtain ⟨rfl, he⟩ := List.append_inj' he rfl
    obtain rfl : _ = name := by simpa using he
    exact hn _ _ (.enter hdir hname ⟨label, hl, hlink⟩ walk)

end Walk
end Graft.File
