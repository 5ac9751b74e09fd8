import RightsPolicy.Proofs.Policy.Addressed
import RightsPolicy.Proofs.Validation.Removal

namespace RightsPolicy

def OdrlRuleField.violation? (location : Location) : OdrlRuleField → Option Violation
  | .action _ => some ⟨.missingAction, location, "action"⟩
  | .target _ => none

def OdrlRuleField.IsMissing : OdrlRuleField → Prop
  | .action value => value = none
  | .target value => value = none

def ConstraintField.violation (location : Location) : ConstraintField → Violation
  | .leftOperand _ => ⟨.missingLeftOperand, location, "leftOperand"⟩
  | .operator _ => ⟨.missingOperator, location, "operator"⟩
  | .rightOperand _ => ⟨.missingRightOperand, location, "rightOperand"⟩

def ConstraintField.IsMissing : ConstraintField → Prop
  | .leftOperand value => value = none
  | .operator value => value = none
  | .rightOperand value => Text.Blank value

def GenericRuleField.violation (location : Location) : GenericRuleField → Violation
  | .ruleType _ => ⟨.missingRuleType, location, "type"⟩
  | .operator _ => ⟨.missingRuleOperator, location, "operator"⟩
  | .value _ => ⟨.missingRuleValue, location, "value"⟩
  | .description _ => ⟨.missingRuleDescription, location, "description"⟩

def GenericRuleField.IsMissing : GenericRuleField → Prop
  | .ruleType term => term = none
  | .operator term => term = none
  | .value text => Text.Blank text
  | .description text => Text.Blank text

def RuleIds.IsOnlyAt {ι : Type} (ids : RuleIds ι) (id : RuleId) (i : ι) (index : Nat) : Prop :=
  ∀ j place, (ids.lists j)[place]? = some id ↔ j = i ∧ place = index

theorem RuleIds.isOnlyAt_of_getElem? {ι : Type} {ids : RuleIds ι} (h : ids.Ordered) {id : RuleId}
    {i : ι} {index : Nat} (hid : (ids.lists i)[index]? = some id) : ids.IsOnlyAt id i index := by
  intro j place
  constructor
  · intro hplace
    exact place_unique h hplace hid
  · rintro ⟨rfl, rfl⟩
    exact hid

def otherViolations (v? : Option Violation) (vs : List Violation) : List Violation :=
  vs.filter fun v => some v ≠ v?

section Others

variable {v? : Option Violation}

theorem otherViolations_append (vs ws : List Violation) :
    otherViolations v? (vs ++ ws) = otherViolations v? vs ++ otherViolations v? ws :=
  List.filter_append vs ws

theorem otherViolations_violationIf (unmet : Bool) (code : ViolationCode) (location : Location)
    (field : String) :
    otherViolations (some ⟨code, location, field⟩) (violationIf unmet code location field) = [] := by
  cases unmet <;> simp [otherViolations, violationIf]

theorem otherViolations_zipIdx {α : Type} (items : List α) (check : α → Nat → List Violation) :
    otherViolations v? (items.zipIdx.flatMap fun (a, index) => check a index) =
      items.zipIdx.flatMap fun (a, index) => otherViolations v? (check a index) :=
  List.filter_flatMap

theorem otherViolations_zipIdx_set {α : Type} {items : List α} {place : Nat} {item edited : α}
    (check : α → Nat → List Violation) (hitem : items[place]? = some item)
    (h : otherViolations v? (check item place) = otherViolations v? (check edited place)) :
    otherViolations v? (items.zipIdx.flatMap fun (a, index) => check a index) =
      otherViolations v? ((items.set place edited).zipIdx.flatMap fun (a, index) =>
        check a index) := by
  rw [otherViolations_zipIdx, otherViolations_zipIdx]
  rw [← Nat.zero_add place] at h
  exact @flatMap_zipIdx_set α Violation items (fun a index => otherViolations v? (check a index))
    (fun a index => otherViolations v? (check a index)) 0 place item edited hitem h
    fun _ _ _ => rfl

end Others

structure DifferInOne (v? : Option Violation) (missing : Prop) (before after : List Violation) :
    Prop where
  others : otherViolations v? before = otherViolations v? after
  reported : ∀ v ∈ v?, v ∈ after ↔ missing

namespace OdrlPolicy

variable {policy after : OdrlPolicy} {id : RuleId} {partition : Partition} {index : Nat}
  {rule edited : OdrlRule} {v? : Option Violation}

theorem otherViolations_violationsIn {check : Partition → OdrlRule → Nat → List Violation}
    (hrule : (policy.rulesIn partition)[index]? = some rule)
    (h : otherViolations v? (check partition rule index) =
      otherViolations v? (check partition edited index)) :
    otherViolations v? ((Vocabulary.values (α := Partition)).flatMap (policy.violationsIn check)) =
      otherViolations v? ((Vocabulary.values (α := Partition)).flatMap
        ((policy.setRulesIn partition
          ((policy.rulesIn partition).set index edited)).violationsIn check)) := by
  rw [otherViolations, otherViolations, List.filter_flatMap, List.filter_flatMap]
  refine List.flatMap_congr ?_
  intro other _
  by_cases hother : other = partition
  · rw [hother, violationsIn, violationsIn, rulesIn_setRulesIn_self]
    exact otherViolations_zipIdx_set (check partition) hrule h
  · rw [violationsIn, violationsIn, rulesIn_setRulesIn_of_ne policy _ hother]

theorem otherViolations_set (hrule : (policy.rulesIn partition)[index]? = some rule)
    (hactions : otherViolations v? (actionViolations partition rule index) =
      otherViolations v? (actionViolations partition edited index))
    (hconstraints : otherViolations v? (constraintViolations partition rule index) =
      otherViolations v? (constraintViolations partition edited index)) :
    otherViolations v? policy.violations = otherViolations v? (policy.setRulesIn partition
      ((policy.rulesIn partition).set index edited)).violations := by
  -- as many rules as before, so the fields of the policy are judged as before
  have hcount := ruleCount_setRulesIn policy partition ((policy.rulesIn partition).set index edited)
  rw [List.length_set, Nat.add_right_cancel_iff] at hcount
  have hallActions := otherViolations_violationsIn hrule hactions
  have hallConstraints := otherViolations_violationsIn hrule hconstraints
  simp only [violations_eq, List.flatMap_cons, List.flatMap_nil, otherViolations_append,
    fieldViolations_setRulesIn, hcount, hallActions, hallConstraints]

theorem getElem?_rulesIn_set (hrule : (policy.rulesIn partition)[index]? = some rule)
    (edited : OdrlRule) : ((policy.setRulesIn partition
      ((policy.rulesIn partition).set index edited)).rulesIn partition)[index]? = some edited := by
  rw [rulesIn_setRulesIn_self]
  exact List.getElem?_set_self (List.getElem?_eq_some_iff.mp hrule).1

theorem mem_violations_at_rule (hrule : (policy.rulesIn partition)[index]? = some rule)
    {v : Violation} (hv : v.location = .rule (some partition) index) :
    v ∈ policy.violations ↔ v ∈ actionViolations partition rule index := by
  constructor
  · intro hmem
    cases unmet_of_mem_violations hmem with
    | action hfound hnone =>
      cases hv
      rw [hrule] at hfound
      cases hfound
      exact mem_actionViolations.mpr ⟨hnone, rfl⟩
    | _ => cases hv
  · intro hmem
    exact mem_violations.mpr (.inr (.inr (.inl ⟨partition, index, rule, hrule, hmem⟩)))

theorem mem_violations_at_constraint (hrule : (policy.rulesIn partition)[index]? = some rule)
    {place : Nat} {constraint : Constraint} (hconstraint : rule.constraints[place]? = some constraint)
    {v : Violation} (hv : v.location = .constraint partition index place) :
    v ∈ policy.violations ↔ v ∈ constraint.violations (.constraint partition index place) := by
  refine ⟨?_, mem_violations_of_constraint hrule hconstraint⟩
  intro hmem
  have hsame {other : OdrlRule} {found : Constraint}
      (hother : (policy.rulesIn partition)[index]? = some other)
      (hfound : other.constraints[place]? = some found) : found = constraint := by
    rw [hrule] at hother
    cases hother
    exact Option.some.inj (hfound.symm.trans hconstraint)
  cases unmet_of_mem_violations hmem with
  | leftOperand hother hfound h =>
    cases hv
    exact Constraint.mem_violations.mpr (.inl ⟨hsame hother hfound ▸ h, rfl⟩)
  | operator hother hfound h =>
    cases hv
    exact Constraint.mem_violations.mpr (.inr (.inl ⟨hsame hother hfound ▸ h, rfl⟩))
  | rightOperand hother hfound h =>
    cases hv
    exact Constraint.mem_violations.mpr (.inr (.inr ⟨hsame hother hfound ▸ h, rfl⟩))
  | _ => cases hv

theorem differInOne_updateRule (field : OdrlRuleField)
    (hrule : (policy.rulesIn partition)[index]? = some rule) :
    DifferInOne (field.violation? (.rule (some partition) index)) field.IsMissing policy.violations
      (policy.setRulesIn partition
        ((policy.rulesIn partition).set index (rule.set field))).violations where
  others := by
    refine otherViolations_set hrule ?_ ?_
    · cases field with
      | action value =>
        simp only [OdrlRuleField.violation?, actionViolations, otherViolations_violationIf]
      | target value => rfl
    · cases field <;> rfl
  reported v hv := by
    cases field with
    | target value => cases hv
    | action value =>
      cases hv
      have hset := getElem?_rulesIn_set hrule (rule.set (.action value))
      rw [mem_violations_at_rule hset rfl, mem_actionViolations]
      exact and_iff_left rfl

theorem differInOne_updateConstraint (field : ConstraintField)
    (hrule : (policy.rulesIn partition)[index]? = some rule) {place : Nat} {constraint : Constraint}
    (hconstraint : rule.constraints[place]? = some constraint) :
    DifferInOne (some (field.violation (.constraint partition index place))) field.IsMissing
      policy.violations
      (policy.setRulesIn partition ((policy.rulesIn partition).set index { rule with
        constraints := rule.constraints.set place (constraint.set field) })).violations where
  others := by
    refine otherViolations_set hrule rfl ?_
    refine otherViolations_zipIdx_set
      (fun constraint k => constraint.violations (.constraint partition index k)) hconstraint ?_
    cases field <;>
      simp only [ConstraintField.violation, Constraint.violations, otherViolations_append,
        otherViolations_violationIf] <;> rfl
  reported v hv := by
    cases hv
    have hset := getElem?_rulesIn_set hrule { rule with
      constraints := rule.constraints.set place (constraint.set field) }
    have hplace : (rule.constraints.set place (constraint.set field))[place]? =
        some (constraint.set field) :=
      List.getElem?_set_self (List.getElem?_eq_some_iff.mp hconstraint).1
    have hlocation : (field.violation (.constraint partition index place)).location =
        .constraint partition index place := by
      cases field <;> rfl
    rw [mem_violations_at_constraint hset hplace hlocation, Constraint.mem_violations]
    cases field <;> simp [ConstraintField.violation, ConstraintField.IsMissing, Constraint.set]

theorem updateRule_eq_ok {field : OdrlRuleField} (h : policy.updateRule id field = .ok after) :
    ∃ partition index rule, (policy.rulesIn partition)[index]? = some rule ∧ rule.id = id ∧
      after = policy.setRulesIn partition
        ((policy.rulesIn partition).set index (rule.set field)) := by
  obtain ⟨partition, index, rule, edited, hrule, hid, hedited, rfl⟩ := editRule_eq_ok h
  cases hedited
  exact ⟨partition, index, rule, hrule, hid, rfl⟩

theorem updateConstraint_eq_ok {place : Nat} {field : ConstraintField}
    (h : policy.updateConstraint id place field = .ok after) :
    ∃ partition index rule constraint, (policy.rulesIn partition)[index]? = some rule ∧
      rule.id = id ∧ rule.constraints[place]? = some constraint ∧
      after = policy.setRulesIn partition ((policy.rulesIn partition).set index { rule with
        constraints := rule.constraints.set place (constraint.set field) }) := by
  obtain ⟨partition, index, rule, edited, hrule, hid, hedited, rfl⟩ := editRule_eq_ok h
  cases hconstraint : rule.constraints[place]? with
  | none =>
    simp only [hconstraint] at hedited
    cases hedited
  | some constraint =>
    simp only [hconstraint] at hedited
    cases hedited
    exact ⟨partition, index, rule, constraint, hrule, hid, hconstraint, rfl⟩

end OdrlPolicy

namespace GenericPolicy

variable {policy : GenericPolicy} {index : Nat} {rule : GenericRule}

theorem mem_violations_at_rule (hrule : policy.rules[index]? = some rule) {v : Violation}
    (hv : v.location = .rule none index) :
    v ∈ policy.violations ↔ v ∈ ruleViolations rule index := by
  refine ⟨?_, mem_violations_of_rule hrule⟩
  intro hmem
  rcases mem_violations.mp hmem with hfield | ⟨place, other, hother, hmem⟩
  · rw [location_of_mem_fieldViolations hfield] at hv
    cases hv
  · have hplace : place = index := by
      rcases mem_ruleViolations.mp hmem with ⟨-, rfl⟩ | ⟨-, rfl⟩ | ⟨-, rfl⟩ | ⟨-, rfl⟩ <;>
        exact (Location.rule.inj hv).2
    subst hplace
    rw [hrule] at hother
    cases hother
    exact hmem

theorem differInOne_updateRule (field : GenericRuleField)
    (hrule : policy.rules[index]? = some rule) :
    DifferInOne (some (field.violation (.rule none index))) field.IsMissing policy.violations
      { policy with rules := policy.rules.set index (rule.set field) }.violations where
  others := by
    have hrule' : otherViolations (some (field.violation (.rule none index)))
          (ruleViolations rule index) =
        otherViolations (some (field.violation (.rule none index)))
          (ruleViolations (rule.set field) index) := by
      cases field <;>
        simp only [GenericRuleField.violation, ruleViolations, otherViolations_append,
          otherViolations_violationIf] <;> rfl
    have hrules := otherViolations_zipIdx_set ruleViolations hrule hrule'
    rw [violations, violations, otherViolations_append, otherViolations_append, hrules]
    rfl
  reported v hv := by
    cases hv
    have hset : (policy.rules.set index (rule.set field))[index]? = some (rule.set field) :=
      List.getElem?_set_self (List.getElem?_eq_some_iff.mp hrule).1
    have hlocation : (field.violation (.rule none index)).location = .rule none index := by
      cases field <;> rfl
    rw [@mem_violations_at_rule { policy with rules := policy.rules.set index (rule.set field) } _ _
      hset _ hlocation, mem_ruleViolations]
    cases field <;> simp [GenericRuleField.violation, GenericRuleField.IsMissing, GenericRule.set]

theorem updateRule_eq_ok {after : GenericPolicy} {id : RuleId} {field : GenericRuleField}
    (h : policy.updateRule id field = .ok after) :
    ∃ index rule, policy.rules[index]? = some rule ∧ rule.id = id ∧
      after = { policy with rules := policy.rules.set index (rule.set field) } := by
  unfold updateRule at h
  split at h
  · cases h
  · rename_i index hplace
    cases h
    obtain ⟨rule, hrule, hid⟩ := getElem?_of_place? hplace
    refine ⟨index, rule, hrule, hid, ?_⟩
    simp [List.modify_eq_set_getElem?, hrule]

end GenericPolicy

theorem updates_change_one_violation :
    (∀ policy : OdrlPolicy, policy.Reachable →
      (∀ id field after, policy.updateRule id field = .ok after →
        ∃ partition index, policy.ruleIds.IsOnlyAt id partition index ∧
          DifferInOne (field.violation? (.rule (some partition) index)) field.IsMissing
            policy.violations after.violations) ∧
      ∀ id place field after, policy.updateConstraint id place field = .ok after →
        ∃ partition index, policy.ruleIds.IsOnlyAt id partition index ∧
          DifferInOne (some (field.violation (.constraint partition index place))) field.IsMissing
            policy.violations after.violations) ∧
    ∀ policy : GenericPolicy, policy.Reachable →
      ∀ id field after, policy.updateRule id field = .ok after →
        ∃ index, policy.ruleIds.IsOnlyAt id () index ∧
          DifferInOne (some (field.violation (.rule none index))) field.IsMissing
            policy.violations after.violations := by
  refine ⟨?_, ?_⟩
  · intro policy hpolicy
    refine ⟨?_, ?_⟩
    · intro id field after hupdate
      obtain ⟨partition, index, rule, hrule, rfl, rfl⟩ := OdrlPolicy.updateRule_eq_ok hupdate
      have hid := OdrlPolicy.getElem?_ruleIds hrule
      exact ⟨partition, index, RuleIds.isOnlyAt_of_getElem? hpolicy.ordered hid,
        OdrlPolicy.differInOne_updateRule field hrule⟩
    · intro id place field after hupdate
      obtain ⟨partition, index, rule, constraint, hrule, rfl, hconstraint, rfl⟩ :=
        OdrlPolicy.updateConstraint_eq_ok hupdate
      have hid := OdrlPolicy.getElem?_ruleIds hrule
      exact ⟨partition, index, RuleIds.isOnlyAt_of_getElem? hpolicy.ordered hid,
        OdrlPolicy.differInOne_updateConstraint field hrule hconstraint⟩
  · intro policy hpolicy id field after hupdate
    obtain ⟨index, rule, hrule, rfl, rfl⟩ := GenericPolicy.updateRule_eq_ok hupdate
    have hid := GenericPolicy.getElem?_ruleIds hrule
    exact ⟨index, RuleIds.isOnlyAt_of_getElem? hpolicy.ordered hid,
      GenericPolicy.differInOne_updateRule field hrule⟩

theorem update_of_drafted_duty : ∃ after,
    OdrlPolicy.draftedSet.Reachable ∧
      OdrlPolicy.draftedSet.updateConstraint ⟨2⟩ 1 (.operator (some .eq)) = .ok after ∧
      ∃ partition index, OdrlPolicy.draftedSet.ruleIds.IsOnlyAt ⟨2⟩ partition index ∧
        DifferInOne (some ⟨.missingOperator, .constraint partition index 1, "operator"⟩)
          (some ConstraintOperator.eq = none) OdrlPolicy.draftedSet.violations
          after.violations := by
  obtain ⟨after, hupdate⟩ : ∃ after,
      OdrlPolicy.draftedSet.updateConstraint ⟨2⟩ 1 (.operator (some .eq)) = .ok after := ⟨_, rfl⟩
  have hupdates := updates_change_one_violation.1 _ OdrlPolicy.reachable_draftedSet
  exact ⟨after, OdrlPolicy.reachable_draftedSet, hupdate, hupdates.2 _ _ _ _ hupdate⟩

end RightsPolicy
