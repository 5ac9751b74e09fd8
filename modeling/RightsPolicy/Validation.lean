import RightsPolicy.Policy.Basic
import RightsPolicy.Validation.Violation

namespace RightsPolicy

def violationIf (unmet : Bool) (code : ViolationCode) (location : Location) (field : String) :
    List Violation :=
  if unmet then [⟨code, location, field⟩] else []

namespace Constraint

def violations (constraint : Constraint) (location : Location) : List Violation :=
  violationIf constraint.leftOperand.isNone .missingLeftOperand location "leftOperand" ++
    violationIf constraint.operator.isNone .missingOperator location "operator" ++
    violationIf (Text.isBlank constraint.rightOperand) .missingRightOperand location "rightOperand"

end Constraint

namespace OdrlPolicy

def fieldViolations (policy : OdrlPolicy) : List Violation :=
  violationIf (Text.isBlank policy.uid) .missingUid .policy "uid" ++
    violationIf (policy.kind.requiresAssigner && Text.isBlank policy.assigner) .missingAssigner
      .policy "assigner" ++
    violationIf (policy.kind.requiresAssignee && Text.isBlank policy.assignee) .missingAssignee
      .policy "assignee" ++
    violationIf (Text.isBlank policy.target) .missingTarget .policy "target"

def violationsIn (policy : OdrlPolicy) (check : Partition → OdrlRule → Nat → List Violation)
    (partition : Partition) : List Violation :=
  (policy.rulesIn partition).zipIdx.flatMap fun (rule, index) => check partition rule index

def actionViolations (partition : Partition) (rule : OdrlRule) (index : Nat) : List Violation :=
  violationIf rule.action.isNone .missingAction (.rule (some partition) index) "action"

def constraintViolations (partition : Partition) (rule : OdrlRule) (index : Nat) :
    List Violation :=
  rule.constraints.zipIdx.flatMap fun (constraint, place) =>
    constraint.violations (.constraint partition index place)

def violations (policy : OdrlPolicy) : List Violation :=
  policy.fieldViolations ++
    if policy.ruleCount = 0 then
      [⟨.noRules, .policy, "rules"⟩]
    else
      (Vocabulary.values (α := Partition)).flatMap (policy.violationsIn actionViolations) ++
        (Vocabulary.values (α := Partition)).flatMap (policy.violationsIn constraintViolations)

end OdrlPolicy

namespace GenericPolicy

def isWindowEmpty (policy : GenericPolicy) : Bool :=
  match policy.validFrom, policy.validTo with
  | some first, some last => last.le first
  | _, _ => false

def fieldViolations (policy : GenericPolicy) : List Violation :=
  violationIf (Text.isBlank policy.name) .missingName .policy "name" ++
    violationIf (Text.isBlank policy.description) .missingDescription .policy "description" ++
    violationIf (policy.targetResources.toList.all Text.isBlank) .missingTargetResources
      .policy "targetResources" ++
    violationIf (policy.targetUsers.toList.all Text.isBlank) .missingTargetUsers
      .policy "targetUsers" ++
    violationIf policy.isWindowEmpty .invalidValidityWindow .policy "validTo"

def ruleViolations (rule : GenericRule) (index : Nat) : List Violation :=
  violationIf (Text.isBlank rule.description) .missingRuleDescription (.rule none index)
      "description" ++
    violationIf (Text.isBlank rule.value) .missingRuleValue (.rule none index) "value" ++
    violationIf rule.ruleType.isNone .missingRuleType (.rule none index) "type" ++
    violationIf rule.operator.isNone .missingRuleOperator (.rule none index) "operator"

def violations (policy : GenericPolicy) : List Violation :=
  policy.fieldViolations ++
    policy.rules.zipIdx.flatMap fun (rule, index) => ruleViolations rule index

end GenericPolicy

namespace Policy

def violations : Policy → List Violation
  | .odrl policy => policy.violations
  | .generic policy => policy.violations

def ensureValid (policy : Policy) : Except PolicyError Unit :=
  if policy.violations.isEmpty then
    .ok ()
  else
    .error (.invalid (policy.violations.map Violation.text))

end Policy

end RightsPolicy
