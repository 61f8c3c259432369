import Graft.Config.Validation
import Graft.Proofs.Text.Substitution

/-! # What filled templates carry

A value that is filled in for a placeholder of the template stands in the result.  A task is
filled in twice, the class into what the name has made of the template.  So a class placeholder
that stands in the name, or that the name completes, is replaced as well, and the name is lost.
Validation asks for the placeholders of the script and of the name, but not for the one of the
class, without which the class is left out.
-/
namespace Graft
open Text

namespace Placeholder

/-- A placeholder has one opening brace, in front. -/
theorem exists_text (p : Placeholder) :
    ∃ name, p.text.toList = '{' :: name ∧ '{' ∉ name := by
  cases p <;> exact ⟨_, rfl, by decide⟩

theorem text_ne_nil (p : Placeholder) : p.text.toList ≠ [] := by
  cases p <;> decide

variable {p q : Placeholder} (hpq : p ≠ q)
include hpq

theorem not_prefix : ¬ p.text.toList <+: q.text.toList := by
  cases p <;> cases q <;> first | exact absurd rfl hpq | decide

/-- Another placeholder stands behind the first one at the earliest. -/
theorem le_of_standsAt {rest : List Char} {place : Nat}
    (h : StandsAt q.text.toList (p.text.toList ++ rest) place) :
    byteLength p.text.toList ≤ place := by
  obtain ⟨a, hp, ha⟩ := p.exists_text
  obtain ⟨b, hq, -⟩ := q.exists_text
  have hplace : place = 0 ∨ byteLength p.text.toList ≤ place := by
    rw [hp] at h ⊢
    exact standsAt_append_cons ha (hq ▸ h)
  refine hplace.resolve_left ?_
  rintro rfl
  obtain ⟨before, after, ht, hz⟩ := h
  obtain rfl := byteLength_eq_zero_iff.mp hz.symm
  rcases List.prefix_or_prefix_of_prefix (List.prefix_append p.text.toList rest)
    ⟨after, ht.symm⟩ with h | h
  · exact not_prefix hpq h
  · exact not_prefix hpq.symm h

/-- The places of two placeholders do not overlap. -/
theorem standsClear {text : List Char} (h : p.text.toList <:+: text) :
    StandsClear p.text.toList q.text.toList text := by
  obtain ⟨before, after, rfl⟩ := h
  rw [List.append_assoc]
  refine ⟨byteLength before, ⟨before, after, rfl, rfl⟩, fun place hplace => ?_⟩
  rcases Nat.le_total (byteLength before) place with hle | hle
  · obtain ⟨k, rfl⟩ := Nat.exists_eq_add_of_le hle
    exact .inr (Nat.add_le_add_left (le_of_standsAt hpq (standsAt_append_iff.mp hplace)) _)
  · obtain ⟨k, hk⟩ := Nat.exists_eq_add_of_le hle
    obtain ⟨front, behind, ht, rfl⟩ := hplace
    have hp : StandsAt p.text.toList (before ++ (p.text.toList ++ after)) (byteLength before) :=
      ⟨before, after, rfl, rfl⟩
    rw [ht, hk, standsAt_append_iff] at hp
    have := le_of_standsAt hpq.symm hp
    exact .inl (by omega)

end Placeholder

namespace Config

theorem toList_fill (template : String) (p : Placeholder) (value : String) :
    (fill template p value).toList =
      substituteFrom p.text.toList value.toList 0 template.toList := by
  simp [fill, substitute]

theorem fill_eq_self {template : String} {p : Placeholder}
    (h : ¬ p.text.toList <:+: template.toList) (value : String) :
    fill template p value = template := by
  rw [← String.toList_inj, toList_fill, substituteFrom_eq_self p.text_ne_nil h]

/-- A value that is filled in for a placeholder stands in the result. -/
theorem infix_fill {template : String} {p : Placeholder}
    (h : p.text.toList <:+: template.toList) (value : String) :
    value.toList <:+: (fill template p value).toList := by
  rw [toList_fill]
  exact infix_substituteFrom p.text_ne_nil h

theorem infix_of_requirePlaceholder {field template : String} {p : Placeholder}
    (h : requirePlaceholder field template p = []) : p.text.toList <:+: template.toList := by
  unfold requirePlaceholder at h
  split at h
  · next hc => exact contains_iff_infix.mp hc
  · cases h

/-- To every text there is a value that brings nothing of it in.  It can be as long as wanted,
and it is not blank. -/
theorem exists_foreign_value (needle : List Char) (n : Nat) :
    ∃ value : String, allBlank value = false ∧ n < value.toList.length ∧
      Foreign needle value.toList := by
  obtain ⟨x, hx, hf⟩ := exists_foreign needle (Nat.le_add_right needle.length (n + 1))
  have hblank : isBlank x = false := by
    simp only [List.mem_cons, List.not_mem_nil, or_false] at hx
    rcases hx with rfl | rfl | rfl <;> decide
  refine ⟨.ofList (List.replicate (needle.length + (n + 1)) x), ?_, ?_, by simpa using hf⟩
  · simp [allBlank, ← Nat.add_assoc, List.replicate_succ, hblank]
  · rw [String.toList_ofList, List.length_replicate]
    omega

section
variable {template : String} {p : Placeholder}

/-- Every value is carried by the templates with its placeholder, and by no others. -/
theorem value_infix_fill_iff :
    (∀ value, allBlank value = false → value.toList <:+: (fill template p value).toList) ↔
      p.text.toList <:+: template.toList := by
  refine ⟨fun h => Decidable.byContradiction fun hn => ?_, fun h value _ => infix_fill h value⟩
  obtain ⟨value, hv, hlong, -⟩ := exists_foreign_value [] template.toList.length
  have hle := (h value hv).length_le
  rw [fill_eq_self hn] at hle
  omega

/-- What stands in a template clear of the placeholder is kept whatever is filled in, and
nothing else is. -/
theorem infix_fill_iff {needle : List Char} :
    (∀ value, allBlank value = false → needle <:+: (fill template p value).toList) ↔
      StandsClear needle p.text.toList template.toList := by
  simp only [toList_fill]
  constructor
  · intro h
    obtain ⟨value, hv, -, hf⟩ := exists_foreign_value needle 0
    obtain ⟨name, hp, hn⟩ := p.exists_text
    have hi := h value hv
    rw [hp] at hi ⊢
    exact standsClear_of_infix_substituteFrom hn hf hi
  · exact fun h value _ => h.infix_substituteFrom p.text_ne_nil

/-- Another placeholder of the template is still there when this one has been filled in, and some
values bring none in. -/
theorem infix_fill_other_iff {q : Placeholder} (hpq : p ≠ q) :
    (∀ value, allBlank value = false → q.text.toList <:+: (fill template p value).toList) ↔
      q.text.toList <:+: template.toList := by
  rw [infix_fill_iff]
  refine ⟨fun ⟨_, ⟨before, after, ht, _⟩, _⟩ => ⟨before, after, ?_⟩, fun h => ?_⟩
  · rw [ht, List.append_assoc]
  · exact Placeholder.standsClear hpq.symm h

end

theorem script_infix_applyStatement {c : Config} (hv : c.validate = .ok ()) (d : Dialect)
    (script : String) : script.toList <:+: (c.applyStatement d script).toList := by
  have hi := validate_eq_ok_iff.mp hv
  simp only [issues, List.append_eq_nil_iff, and_assoc] at hi
  obtain ⟨-, -, -, -, -, -, -, -, -, hgroovy, hkotlin, -⟩ := hi
  cases d with
  | groovy => exact infix_fill (infix_of_requirePlaceholder hgroovy) script
  | kotlin => exact infix_fill (infix_of_requirePlaceholder hkotlin) script

/-- The statements of a valid configuration carry every script.  They carry every class exactly
when the template of the task has the placeholder of the class, and they carry a name with every
class exactly when the name, filled in, stands somewhere clear of that placeholder. -/
theorem statements_carry_iff {c : Config} (hv : c.validate = .ok ()) (d : Dialect) :
    let task := (c.templates.statements d).task
    (∀ script : String, script.toList <:+: (c.applyStatement d script).toList) ∧
    ((∀ name className, allBlank name = false → allBlank className = false →
        className.toList <:+: (c.taskStatement d name className).toList) ↔
      Placeholder.taskClass.text.toList <:+: task.toList) ∧
    ∀ name, (∀ className, allBlank className = false →
        name.toList <:+: (c.taskStatement d name className).toList) ↔
      StandsClear name.toList Placeholder.taskClass.text.toList
        (fill task .taskName name).toList := by
  refine ⟨script_infix_applyStatement hv d, ?_, fun name => infix_fill_iff⟩
  rw [← infix_fill_other_iff (p := .taskName) (by decide)]
  refine forall_congr' fun name => ?_
  rw [← value_infix_fill_iff]
  exact forall_comm

/-- Arguments that look like placeholders, and a name that also stands inside of one. -/
theorem statements_carry_placeholders :
    let c : Config := {}
    let task := c.taskStatement .groovy "class" "\x7bname\x7d"
    c.validate = .ok () ∧
      "\x7bscript\x7d".toList <:+: (c.applyStatement .groovy "\x7bscript\x7d").toList ∧
      "\x7bname\x7d".toList <:+: task.toList ∧ "class".toList <:+: task.toList := by
  intro c task
  have hv : c.validate = .ok () := validate_eq_ok_iff.mpr (by decide +kernel)
  obtain ⟨hscript, hclass, hname⟩ := statements_carry_iff hv .groovy
  have hn : allBlank "class" = false := by decide
  have hc : allBlank "\x7bname\x7d" = false := by decide
  refine ⟨hv, hscript _, hclass.mpr (by decide +kernel) "class" _ hn hc,
    (hname "class").mpr ?_ _ hc⟩
  rw [standsClear_iff (by decide) Placeholder.taskClass.text_ne_nil]
  decide +kernel

/-- The task is named, but its type is left open. -/
def untypedTask : Config :=
  { templates := { groovy := ⟨"\napply from: '\x7bscript\x7d'", "\n\ntask \x7bname\x7d"⟩ } }

/-- A name is lost that holds the placeholder of the class, and a class that has none. -/
theorem taskStatement_loses_arguments :
    ({} : Config).validate = .ok () ∧
      ({} : Config).taskStatement .groovy "inject\x7bclass\x7d" "Trace" =
        "\n\ntask injectTrace(type: Trace)" ∧
      ¬ "inject\x7bclass\x7d".toList <:+:
        (({} : Config).taskStatement .groovy "inject\x7bclass\x7d" "Trace").toList ∧
      untypedTask.validate = .ok () ∧
      ¬ "Trace".toList <:+: (untypedTask.taskStatement .groovy "inject" "Trace").toList := by
  refine ⟨validate_eq_ok_iff.mpr ?_, ?_, ?_, validate_eq_ok_iff.mpr ?_, ?_⟩ <;> decide +kernel

end Config
end Graft
