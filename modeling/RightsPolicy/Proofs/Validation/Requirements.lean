import RightsPolicy.Validation

namespace RightsPolicy

namespace Text

def trim (cs : List Char) : List Char :=
  (dropSpace (dropSpace cs).reverse).reverse

def Blank (s : String) : Prop :=
  trim s.toList = []

theorem dropSpace_eq_nil_iff {cs : List Char} :
    dropSpace cs = [] ↔ ∀ c ∈ cs, isWhiteSpace c = true := by
  induction cs with
  | nil => simp [dropSpace]
  | cons c cs ih =>
    unfold dropSpace at ih ⊢
    cases h : isWhiteSpace c <;> simp [h, ih]

theorem trim_eq_nil_iff {cs : List Char} :
    trim cs = [] ↔ ∀ c ∈ cs, isWhiteSpace c = true := by
  rw [trim, List.reverse_eq_nil_iff, dropSpace_eq_nil_iff]
  simp only [List.mem_reverse]
  constructor
  · intro h
    have hsplit : cs.takeWhile isWhiteSpace ++ dropSpace cs = cs := List.takeWhile_append_dropWhile
    intro c hc
    rw [← hsplit, List.mem_append] at hc
    rcases hc with hc | hc
    · exact List.all_eq_true.mp List.all_takeWhile c hc
    · exact h c hc
  · intro h c hc
    exact h c ((List.dropWhile_suffix isWhiteSpace).mem hc)

theorem isBlank_iff {s : String} : isBlank s = true ↔ Blank s := by
  rw [Blank, trim_eq_nil_iff, isBlank, List.all_eq_true]

end Text

namespace Instant

def Before (a b : Instant) : Prop :=
  a.second < b.second ∨ a.second = b.second ∧ a.nano < b.nano

theorem le_iff {a b : Instant} : a.le b = true ↔ ¬ b.Before a := by
  simp only [le, Before, Bool.or_eq_true, Bool.and_eq_true, decide_eq_true_eq]
  omega

end Instant

theorem mem_violationIf {unmet : Bool} {code : ViolationCode} {location : Location}
    {field : String} {v : Violation} :
    v ∈ violationIf unmet code location field ↔ unmet = true ∧ v = ⟨code, location, field⟩ := by
  cases unmet <;> simp [violationIf]

theorem mem_zipIdx_flatMap {α : Type} {items : List α} {check : α → Nat → List Violation}
    {v : Violation} :
    v ∈ (items.zipIdx.flatMap fun (item, index) => check item index) ↔
      ∃ index item, items[index]? = some item ∧ v ∈ check item index := by
  simp only [List.mem_flatMap, Prod.exists, List.mk_mem_zipIdx_iff_getElem?]
  exact exists_comm

theorem Constraint.mem_violations {constraint : Constraint} {location : Location} {v : Violation} :
    v ∈ constraint.violations location ↔
      (constraint.leftOperand = none ∧ v = ⟨.missingLeftOperand, location, "leftOperand"⟩) ∨
      (constraint.operator = none ∧ v = ⟨.missingOperator, location, "operator"⟩) ∨
      (Text.Blank constraint.rightOperand ∧
        v = ⟨.missingRightOperand, location, "rightOperand"⟩) := by
  simp only [violations, List.mem_append, mem_violationIf, Text.isBlank_iff,
    Option.isNone_iff_eq_none, or_assoc]

namespace OdrlPolicy

inductive Unmet (policy : OdrlPolicy) : Violation → Prop where
  | uid (h : Text.Blank policy.uid) : Unmet policy ⟨.missingUid, .policy, "uid"⟩
  | assigner (hkind : policy.kind = .agreement ∨ policy.kind = .offer)
      (h : Text.Blank policy.assigner) : Unmet policy ⟨.missingAssigner, .policy, "assigner"⟩
  | assignee (hkind : policy.kind = .agreement) (h : Text.Blank policy.assignee) :
      Unmet policy ⟨.missingAssignee, .policy, "assignee"⟩
  | target (h : Text.Blank policy.target) : Unmet policy ⟨.missingTarget, .policy, "target"⟩
  | rules (h : ∀ partition, policy.rulesIn partition = []) :
      Unmet policy ⟨.noRules, .policy, "rules"⟩
  | action {partition index rule} (hrule : (policy.rulesIn partition)[index]? = some rule)
      (h : rule.action = none) :
      Unmet policy ⟨.missingAction, .rule (some partition) index, "action"⟩
  | leftOperand {partition ruleIndex index rule constraint}
      (hrule : (policy.rulesIn partition)[ruleIndex]? = some rule)
      (hconstraint : rule.constraints[index]? = some constraint)
      (h : constraint.leftOperand = none) :
      Unmet policy ⟨.missingLeftOperand, .constraint partition ruleIndex index, "leftOperand"⟩
  | operator {partition ruleIndex index rule constraint}
      (hrule : (policy.rulesIn partition)[ruleIndex]? = some rule)
      (hconstraint : rule.constraints[index]? = some constraint)
      (h : constraint.operator = none) :
      Unmet policy ⟨.missingOperator, .constraint partition ruleIndex index, "operator"⟩
  | rightOperand {partition ruleIndex index rule constraint}
      (hrule : (policy.rulesIn partition)[ruleIndex]? = some rule)
      (hconstraint : rule.constraints[index]? = some constraint)
      (h : Text.Blank constraint.rightOperand) :
      Unmet policy ⟨.missingRightOperand, .constraint partition ruleIndex index, "rightOperand"⟩

variable {policy : OdrlPolicy} {v : Violation}

theorem ruleCount_eq_zero_iff :
    policy.ruleCount = 0 ↔ ∀ partition, policy.rulesIn partition = [] := by
  constructor
  · intro h partition
    simp only [ruleCount, Nat.add_eq_zero_iff, List.length_eq_zero_iff] at h
    cases partition
    · exact h.1.1
    · exact h.1.2
    · exact h.2
  · intro h
    have hpermission : policy.permission = [] := h .permission
    have hprohibition : policy.prohibition = [] := h .prohibition
    have hobligation : policy.obligation = [] := h .obligation
    simp [ruleCount, hpermission, hprohibition, hobligation]

theorem mem_flatMap_violationsIn {check : Partition → OdrlRule → Nat → List Violation} :
    v ∈ (Vocabulary.values (α := Partition)).flatMap (policy.violationsIn check) ↔
      ∃ partition index rule, (policy.rulesIn partition)[index]? = some rule ∧
        v ∈ check partition rule index := by
  rw [List.mem_flatMap]
  simp only [Vocabulary.complete, true_and]
  exact exists_congr fun partition => mem_zipIdx_flatMap

theorem mem_constraintViolations {partition : Partition} {rule : OdrlRule} {index : Nat} :
    v ∈ constraintViolations partition rule index ↔
      ∃ place constraint, rule.constraints[place]? = some constraint ∧
        v ∈ Constraint.violations constraint (.constraint partition index place) :=
  @mem_zipIdx_flatMap _ rule.constraints
    (fun constraint place => constraint.violations (.constraint partition index place)) v

theorem mem_violations : v ∈ policy.violations ↔ v ∈ policy.fieldViolations ∨
    (policy.ruleCount = 0 ∧ v = ⟨.noRules, .policy, "rules"⟩) ∨
    (∃ partition index rule, (policy.rulesIn partition)[index]? = some rule ∧
      v ∈ actionViolations partition rule index) ∨
    ∃ partition index rule, (policy.rulesIn partition)[index]? = some rule ∧
      v ∈ constraintViolations partition rule index := by
  have hnone (h : policy.ruleCount = 0) (check : Partition → OdrlRule → Nat → List Violation) :
      ¬ ∃ partition index rule, (policy.rulesIn partition)[index]? = some rule ∧
        v ∈ check partition rule index := by
    rintro ⟨partition, index, rule, hrule, _⟩
    rw [ruleCount_eq_zero_iff.mp h partition] at hrule
    cases hrule
  rw [violations, List.mem_append]
  split
  · rename_i h
    simp only [h, hnone h, List.mem_singleton, true_and, or_false]
  · rename_i h
    simp only [h, List.mem_append, mem_flatMap_violationsIn, false_and, false_or]

theorem requiresAssigner_iff {kind : OdrlKind} :
    kind.requiresAssigner = true ↔ kind = .agreement ∨ kind = .offer := by
  cases kind <;> decide

theorem requiresAssignee_iff {kind : OdrlKind} :
    kind.requiresAssignee = true ↔ kind = .agreement := by
  cases kind <;> decide

theorem mem_fieldViolations : v ∈ policy.fieldViolations ↔
    (Text.Blank policy.uid ∧ v = ⟨.missingUid, .policy, "uid"⟩) ∨
    (((policy.kind = .agreement ∨ policy.kind = .offer) ∧ Text.Blank policy.assigner) ∧
      v = ⟨.missingAssigner, .policy, "assigner"⟩) ∨
    ((policy.kind = .agreement ∧ Text.Blank policy.assignee) ∧
      v = ⟨.missingAssignee, .policy, "assignee"⟩) ∨
    (Text.Blank policy.target ∧ v = ⟨.missingTarget, .policy, "target"⟩) := by
  simp only [fieldViolations, List.mem_append, mem_violationIf, Bool.and_eq_true, Text.isBlank_iff,
    requiresAssigner_iff, requiresAssignee_iff, or_assoc]

theorem mem_actionViolations {partition : Partition} {rule : OdrlRule} {index : Nat} :
    v ∈ actionViolations partition rule index ↔
      rule.action = none ∧ v = ⟨.missingAction, .rule (some partition) index, "action"⟩ := by
  simp only [actionViolations, mem_violationIf, Option.isNone_iff_eq_none]

theorem unmet_of_mem_violations (hmem : v ∈ policy.violations) : policy.Unmet v := by
  rcases mem_violations.mp hmem with hfield | ⟨hcount, rfl⟩ |
    ⟨partition, index, rule, hrule, haction⟩ | ⟨partition, ruleIndex, rule, hrule, hmem⟩
  · rcases mem_fieldViolations.mp hfield with
      ⟨h, rfl⟩ | ⟨⟨hkind, h⟩, rfl⟩ | ⟨⟨hkind, h⟩, rfl⟩ | ⟨h, rfl⟩
    · exact .uid h
    · exact .assigner hkind h
    · exact .assignee hkind h
    · exact .target h
  · exact .rules (ruleCount_eq_zero_iff.mp hcount)
  · obtain ⟨h, rfl⟩ := mem_actionViolations.mp haction
    exact .action hrule h
  · obtain ⟨index, constraint, hconstraint, hmem⟩ := mem_constraintViolations.mp hmem
    rcases Constraint.mem_violations.mp hmem with ⟨h, rfl⟩ | ⟨h, rfl⟩ | ⟨h, rfl⟩
    · exact .leftOperand hrule hconstraint h
    · exact .operator hrule hconstraint h
    · exact .rightOperand hrule hconstraint h

theorem mem_violations_of_constraint {partition : Partition} {ruleIndex index : Nat}
    {rule : OdrlRule} {constraint : Constraint}
    (hrule : (policy.rulesIn partition)[ruleIndex]? = some rule)
    (hconstraint : rule.constraints[index]? = some constraint)
    (h : v ∈ constraint.violations (.constraint partition ruleIndex index)) :
    v ∈ policy.violations := by
  have hmem := mem_constraintViolations.mpr ⟨index, constraint, hconstraint, h⟩
  exact mem_violations.mpr (.inr (.inr (.inr ⟨partition, ruleIndex, rule, hrule, hmem⟩)))

theorem mem_violations_of_unmet (h : policy.Unmet v) : v ∈ policy.violations := by
  cases h with
  | uid h => exact mem_violations.mpr (.inl (mem_fieldViolations.mpr (by simp [h])))
  | assigner hkind h =>
    exact mem_violations.mpr (.inl (mem_fieldViolations.mpr (by simp [hkind, h])))
  | assignee hkind h =>
    exact mem_violations.mpr (.inl (mem_fieldViolations.mpr (by simp [hkind, h])))
  | target h => exact mem_violations.mpr (.inl (mem_fieldViolations.mpr (by simp [h])))
  | rules h => exact mem_violations.mpr (.inr (.inl ⟨ruleCount_eq_zero_iff.mpr h, rfl⟩))
  | @action partition index rule hrule h =>
    have hmem := (@mem_actionViolations _ partition rule index).mpr ⟨h, rfl⟩
    exact mem_violations.mpr (.inr (.inr (.inl ⟨partition, index, rule, hrule, hmem⟩)))
  | leftOperand hrule hconstraint h =>
    exact mem_violations_of_constraint hrule hconstraint
      (Constraint.mem_violations.mpr (by simp [h]))
  | operator hrule hconstraint h =>
    exact mem_violations_of_constraint hrule hconstraint
      (Constraint.mem_violations.mpr (by simp [h]))
  | rightOperand hrule hconstraint h =>
    exact mem_violations_of_constraint hrule hconstraint
      (Constraint.mem_violations.mpr (by simp [h]))

end OdrlPolicy

namespace GenericPolicy

inductive Unmet (policy : GenericPolicy) : Violation → Prop where
  | name (h : Text.Blank policy.name) : Unmet policy ⟨.missingName, .policy, "name"⟩
  | description (h : Text.Blank policy.description) :
      Unmet policy ⟨.missingDescription, .policy, "description"⟩
  | targetResources (h : ∀ resource ∈ policy.targetResources.toList, Text.Blank resource) :
      Unmet policy ⟨.missingTargetResources, .policy, "targetResources"⟩
  | targetUsers (h : ∀ user ∈ policy.targetUsers.toList, Text.Blank user) :
      Unmet policy ⟨.missingTargetUsers, .policy, "targetUsers"⟩
  | window {first last} (hfirst : policy.validFrom = some first)
      (hlast : policy.validTo = some last) (h : ¬ first.Before last) :
      Unmet policy ⟨.invalidValidityWindow, .policy, "validTo"⟩
  | ruleDescription {index rule} (hrule : policy.rules[index]? = some rule)
      (h : Text.Blank rule.description) :
      Unmet policy ⟨.missingRuleDescription, .rule none index, "description"⟩
  | ruleValue {index rule} (hrule : policy.rules[index]? = some rule)
      (h : Text.Blank rule.value) : Unmet policy ⟨.missingRuleValue, .rule none index, "value"⟩
  | ruleType {index rule} (hrule : policy.rules[index]? = some rule) (h : rule.ruleType = none) :
      Unmet policy ⟨.missingRuleType, .rule none index, "type"⟩
  | ruleOperator {index rule} (hrule : policy.rules[index]? = some rule)
      (h : rule.operator = none) :
      Unmet policy ⟨.missingRuleOperator, .rule none index, "operator"⟩

variable {policy : GenericPolicy} {v : Violation}

theorem isWindowEmpty_iff : policy.isWindowEmpty = true ↔ ∃ first last,
    policy.validFrom = some first ∧ policy.validTo = some last ∧ ¬ first.Before last := by
  unfold isWindowEmpty
  cases policy.validFrom <;> cases policy.validTo <;> simp [Instant.le_iff]

theorem mem_fieldViolations : v ∈ policy.fieldViolations ↔
    (Text.Blank policy.name ∧ v = ⟨.missingName, .policy, "name"⟩) ∨
    (Text.Blank policy.description ∧ v = ⟨.missingDescription, .policy, "description"⟩) ∨
    ((∀ resource ∈ policy.targetResources.toList, Text.Blank resource) ∧
      v = ⟨.missingTargetResources, .policy, "targetResources"⟩) ∨
    ((∀ user ∈ policy.targetUsers.toList, Text.Blank user) ∧
      v = ⟨.missingTargetUsers, .policy, "targetUsers"⟩) ∨
    ((∃ first last, policy.validFrom = some first ∧ policy.validTo = some last ∧
      ¬ first.Before last) ∧ v = ⟨.invalidValidityWindow, .policy, "validTo"⟩) := by
  simp only [fieldViolations, List.mem_append, mem_violationIf, List.all_eq_true, Text.isBlank_iff,
    isWindowEmpty_iff, or_assoc]

theorem mem_ruleViolations {rule : GenericRule} {index : Nat} :
    v ∈ ruleViolations rule index ↔
      (Text.Blank rule.description ∧
        v = ⟨.missingRuleDescription, .rule none index, "description"⟩) ∨
      (Text.Blank rule.value ∧ v = ⟨.missingRuleValue, .rule none index, "value"⟩) ∨
      (rule.ruleType = none ∧ v = ⟨.missingRuleType, .rule none index, "type"⟩) ∨
      (rule.operator = none ∧ v = ⟨.missingRuleOperator, .rule none index, "operator"⟩) := by
  simp only [ruleViolations, List.mem_append, mem_violationIf, Text.isBlank_iff,
    Option.isNone_iff_eq_none, or_assoc]

theorem mem_violations : v ∈ policy.violations ↔ v ∈ policy.fieldViolations ∨
    ∃ index rule, policy.rules[index]? = some rule ∧ v ∈ ruleViolations rule index := by
  rw [violations, List.mem_append]
  exact or_congr Iff.rfl mem_zipIdx_flatMap

theorem unmet_of_mem_violations (hmem : v ∈ policy.violations) : policy.Unmet v := by
  rcases mem_violations.mp hmem with hfield | ⟨index, rule, hrule, hmem⟩
  · rcases mem_fieldViolations.mp hfield with
      ⟨h, rfl⟩ | ⟨h, rfl⟩ | ⟨h, rfl⟩ | ⟨h, rfl⟩ | ⟨⟨first, last, hfirst, hlast, h⟩, rfl⟩
    · exact .name h
    · exact .description h
    · exact .targetResources h
    · exact .targetUsers h
    · exact .window hfirst hlast h
  · rcases mem_ruleViolations.mp hmem with ⟨h, rfl⟩ | ⟨h, rfl⟩ | ⟨h, rfl⟩ | ⟨h, rfl⟩
    · exact .ruleDescription hrule h
    · exact .ruleValue hrule h
    · exact .ruleType hrule h
    · exact .ruleOperator hrule h

theorem mem_violations_of_rule {index : Nat} {rule : GenericRule}
    (hrule : policy.rules[index]? = some rule) (h : v ∈ ruleViolations rule index) :
    v ∈ policy.violations :=
  mem_violations.mpr (.inr ⟨index, rule, hrule, h⟩)

theorem mem_violations_of_unmet (h : policy.Unmet v) : v ∈ policy.violations := by
  cases h with
  | name h => exact mem_violations.mpr (.inl (mem_fieldViolations.mpr (by simp [h])))
  | description h => exact mem_violations.mpr (.inl (mem_fieldViolations.mpr (by simp [h])))
  | targetResources h =>
    exact mem_violations.mpr (.inl (mem_fieldViolations.mpr (by simpa using h)))
  | targetUsers h => exact mem_violations.mpr (.inl (mem_fieldViolations.mpr (by simpa using h)))
  | window hfirst hlast h =>
    exact mem_violations.mpr (.inl (mem_fieldViolations.mpr (by simp [hfirst, hlast, h])))
  | ruleDescription hrule h =>
    exact mem_violations_of_rule hrule (mem_ruleViolations.mpr (by simp [h]))
  | ruleValue hrule h => exact mem_violations_of_rule hrule (mem_ruleViolations.mpr (by simp [h]))
  | ruleType hrule h => exact mem_violations_of_rule hrule (mem_ruleViolations.mpr (by simp [h]))
  | ruleOperator hrule h =>
    exact mem_violations_of_rule hrule (mem_ruleViolations.mpr (by simp [h]))

end GenericPolicy

namespace Policy

def Unmet : Policy → Violation → Prop
  | .odrl policy => policy.Unmet
  | .generic policy => policy.Unmet

theorem mem_violations_iff {policy : Policy} {v : Violation} :
    v ∈ policy.violations ↔ policy.Unmet v := by
  cases policy with
  | odrl policy => exact ⟨OdrlPolicy.unmet_of_mem_violations, OdrlPolicy.mem_violations_of_unmet⟩
  | generic policy =>
    exact ⟨GenericPolicy.unmet_of_mem_violations, GenericPolicy.mem_violations_of_unmet⟩

end Policy

end RightsPolicy
