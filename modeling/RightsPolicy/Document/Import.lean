import RightsPolicy.Document.Basic
import RightsPolicy.Policy.Basic

namespace RightsPolicy

namespace ConstraintDocument

def toConstraint (document : ConstraintDocument) : Except UnknownTerm Constraint := do
  let leftOperand ← Vocabulary.read? document.leftOperand
  let operator ← Vocabulary.read? document.operator
  .ok ⟨leftOperand, operator, document.rightOperand⟩

end ConstraintDocument

namespace RuleDocument

def toRule (document : RuleDocument) : Except UnknownTerm OdrlRule := do
  let action ← Vocabulary.read? document.action
  let constraints ← document.constraints.mapM ConstraintDocument.toConstraint
  .ok ⟨⟨0⟩, action, document.target, constraints⟩

end RuleDocument

namespace OdrlDocument

def toPolicy (document : OdrlDocument) : Except UnknownTerm OdrlPolicy := do
  let kind ← Vocabulary.read document.kind
  let permission ← document.permission.mapM RuleDocument.toRule
  let prohibition ← document.prohibition.mapM RuleDocument.toRule
  let obligation ← document.obligation.mapM RuleDocument.toRule
  let policy : OdrlPolicy :=
    { OdrlPolicy.new kind with
      uid := document.uid
      profile := document.profile
      assigner := document.assigner.getD ""
      assignee := document.assignee.getD ""
      target := document.target }
  let policy := permission.foldl (·.push .permission ·) policy
  let policy := prohibition.foldl (·.push .prohibition ·) policy
  .ok (obligation.foldl (·.push .obligation ·) policy)

end OdrlDocument

namespace GenericRuleDocument

def toRule (document : GenericRuleDocument) : Except UnknownTerm GenericRule := do
  let ruleType ← Vocabulary.read? document.ruleType
  let operator ← Vocabulary.read? document.operator
  .ok ⟨⟨0⟩, ruleType, operator, document.value, document.description⟩

end GenericRuleDocument

namespace GenericDocument

def toPolicy (document : GenericDocument) : Except UnknownTerm GenericPolicy := do
  let kind ← Vocabulary.read document.kind
  let status ← Vocabulary.read? document.status
  let enforcement ← Vocabulary.read? document.enforcement
  let rules ← document.rules.mapM GenericRuleDocument.toRule
  let policy : GenericPolicy :=
    { GenericPolicy.new kind with
      id := document.id
      name := document.name
      description := document.description
      status := status.getD default
      priority := document.priority
      targetResources := TextSet.ofList document.targetResources
      targetUsers := TextSet.ofList document.targetUsers
      validFrom := document.validFrom
      validTo := document.validTo
      notifications := document.notifications
      enforcement := enforcement.getD default }
  .ok (rules.foldl GenericPolicy.push policy)

end GenericDocument

namespace PolicyDocument

def toPolicy : PolicyDocument → Except UnknownTerm Policy
  | .odrl document => document.toPolicy.map Policy.odrl
  | .generic document => document.toPolicy.map Policy.generic

end PolicyDocument

end RightsPolicy
