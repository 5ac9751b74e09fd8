import Mathlib.Data.List.Nodup
import RightsPolicy.Proofs.Validation.Addressing
import RightsPolicy.Proofs.Validation.Order

namespace RightsPolicy

theorem Json.indexSteps_inj {places places' : List (String × Nat)} {field field' : String}
    (h : indexSteps places ++ [.key field] = indexSteps places' ++ [.key field']) :
    places = places' ∧ field = field' := by
  induction places generalizing places' with
  | nil =>
    cases places' with
    | nil => simpa [indexSteps] using h
    | cons place' places' => simp [indexSteps] at h
  | cons place places ih =>
    cases places' with
    | nil => simp [indexSteps] at h
    | cons place' places' =>
      simp only [indexSteps, List.flatMap_cons, List.cons_append, List.nil_append,
        List.cons.injEq, PathStep.key.injEq, PathStep.index.injEq] at h
      obtain ⟨hname, hindex, hrest⟩ := h
      obtain ⟨rfl, hfield⟩ := ih hrest
      exact ⟨by rw [Prod.ext hname hindex], hfield⟩

theorem Partition.term_ne_rules (partition : Partition) : Vocabulary.term partition ≠ "rules" := by
  cases partition <;> decide

theorem Location.places_injective : Function.Injective places := by
  intro a b h
  have hterm {p q : Partition} (hpq : Vocabulary.term p = Vocabulary.term q) : p = q :=
    Vocabulary.term_injective hpq
  rcases a with _ | ⟨_ | p, i⟩ | ⟨p, r, i⟩ <;> rcases b with _ | ⟨_ | q, j⟩ | ⟨q, s, j⟩ <;>
    simp only [places, List.cons.injEq, Prod.mk.injEq, reduceCtorEq, and_true, and_false] at h
  · rfl
  · rw [h.2]
  · exact absurd h.1.symm q.term_ne_rules
  · exact absurd h.1 p.term_ne_rules
  · rw [hterm h.1, h.2]
  · rw [hterm h.1.1, h.1.2, h.2.2]

namespace Location

def requirement? : Location → String → Option ViolationCode
  | .policy, field =>
    [("uid", .missingUid), ("assigner", .missingAssigner), ("assignee", .missingAssignee),
      ("target", .missingTarget), ("rules", .noRules), ("name", .missingName),
      ("description", .missingDescription), ("targetResources", .missingTargetResources),
      ("targetUsers", .missingTargetUsers), ("validTo", .invalidValidityWindow)].lookup field
  | .rule (some _) _, field => [("action", .missingAction)].lookup field
  | .rule none _, field =>
    [("description", .missingRuleDescription), ("value", .missingRuleValue),
      ("type", .missingRuleType), ("operator", .missingRuleOperator)].lookup field
  | .constraint _ _ _, field =>
    [("leftOperand", .missingLeftOperand), ("operator", .missingOperator),
      ("rightOperand", .missingRightOperand)].lookup field

end Location

namespace Violation

variable {v w : Violation}

structure IsProper (v : Violation) : Prop where
  requirement : v.location.requirement? v.field = some v.code
  field : Json.IsPathKey v.field
  noColon : ':' ∉ v.field.toList

theorem eq_of_path (hv : v.IsProper) (hw : w.IsProper) (h : v.path = w.path) : v = w := by
  have hsteps := congrArg Json.pathSteps? h
  rw [pathSteps?_path hv.field, pathSteps?_path hw.field, Option.some.injEq] at hsteps
  obtain ⟨hplaces, hfield⟩ := Json.indexSteps_inj hsteps
  have hlocation := Location.places_injective hplaces
  have hcode := hv.requirement
  rw [hlocation, hfield, hw.requirement, Option.some.injEq] at hcode
  cases v
  cases w
  simp_all

theorem colon_not_mem_text (location : Location) : ':' ∉ location.text.toList := by
  have hpartition (partition : Partition) : ':' ∉ (Vocabulary.term partition).toList := by
    cases partition <;> decide
  have hdigits (n : Nat) : ':' ∉ Nat.toDigits 10 n := by
    intro hmem
    exact absurd (Text.isDigit_toDigits n _ hmem) (by decide)
  rcases location with _ | ⟨_ | partition, index⟩ | ⟨partition, ruleIndex, index⟩ <;>
    simp [Location.text, hpartition, hdigits]

theorem colon_not_mem_path (hv : v.IsProper) : ':' ∉ v.path.toList := by
  obtain ⟨code, location, field⟩ := v
  have htext := colon_not_mem_text location
  have hfield : ':' ∉ field.toList := hv.noColon
  cases location with
  | policy => exact hfield
  | _ => simp [path, htext, hfield]

theorem takeWhile_text (hv : v.IsProper) : v.text.toList.takeWhile (· ≠ ':') = v.path.toList := by
  have hpath : ∀ c ∈ v.path.toList, decide (c ≠ ':') = true := by
    intro c hc
    refine decide_eq_true ?_
    rintro rfl
    exact colon_not_mem_path hv hc
  rw [text, String.toList_append, String.toList_append, List.append_assoc,
    List.takeWhile_append_of_pos hpath]
  simp

theorem eq_of_text (hv : v.IsProper) (hw : w.IsProper) (h : v.text = w.text) : v = w := by
  apply eq_of_path hv hw
  apply String.toList_inj.mp
  rw [← takeWhile_text hv, ← takeWhile_text hw, h]

end Violation

theorem OdrlPolicy.isProper_of_unmet {policy : OdrlPolicy} {v : Violation} (h : policy.Unmet v) :
    v.IsProper := by
  refine ⟨?_, isPathKey_of_unmet h, ?_⟩
  · cases h <;> rfl
  · cases h <;> (dsimp only; decide)

theorem GenericPolicy.isProper_of_unmet {policy : GenericPolicy} {v : Violation}
    (h : policy.Unmet v) : v.IsProper := by
  refine ⟨?_, isPathKey_of_unmet h, ?_⟩
  · cases h <;> rfl
  · cases h <;> (dsimp only; decide)

namespace Policy

theorem isProper_of_mem {policy : Policy} {v : Violation} (h : v ∈ policy.violations) :
    v.IsProper := by
  have hunmet := mem_violations_iff.mp h
  cases policy with
  | odrl policy => exact OdrlPolicy.isProper_of_unmet hunmet
  | generic policy => exact GenericPolicy.isProper_of_unmet hunmet

theorem paths_identify_violations (p q : Policy) :
    (∀ v ∈ p.violations, ∀ w ∈ q.violations, v.path = w.path ∨ v.text = w.text → v = w) ∧
      (p.violations.map Violation.path).Nodup ∧ (p.violations.map Violation.text).Nodup := by
  have heq (q : Policy) : ∀ v ∈ p.violations, ∀ w ∈ q.violations,
      v.path = w.path ∨ v.text = w.text → v = w := by
    intro v hv w hw h
    rcases h with hpath | htext
    · exact Violation.eq_of_path (isProper_of_mem hv) (isProper_of_mem hw) hpath
    · exact Violation.eq_of_text (isProper_of_mem hv) (isProper_of_mem hw) htext
  have hnodup := p.violations_inOrder.nodup
  refine ⟨heq q, List.Nodup.map_on ?_ hnodup, List.Nodup.map_on ?_ hnodup⟩
  · intro v hv w hw hpath
    exact heq p v hv w hw (.inl hpath)
  · intro v hv w hw htext
    exact heq p v hv w hw (.inr htext)

theorem paths_identify_violations_of_target : ∃ v w,
    (Policy.odrl (.new .offer)).violations[2]? = some v ∧
      (Policy.odrl (.new .agreement)).violations[3]? = some w ∧
      v.path = "target" ∧ w.path = "target" ∧ v = w := by
  refine ⟨_, _, rfl, rfl, rfl, rfl, ?_⟩
  exact (paths_identify_violations (.odrl (.new .offer)) (.odrl (.new .agreement))).1 _
    (by decide) _ (by decide) (.inl rfl)

end Policy

end RightsPolicy
