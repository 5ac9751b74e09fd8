import RightsPolicy.Config.Basic
import RightsPolicy.Document.Basic
import RightsPolicy.Policy.Basic

namespace RightsPolicy

namespace Constraint

def toDocument (constraint : Constraint) : ConstraintDocument where
  leftOperand := Vocabulary.termOrEmpty constraint.leftOperand
  operator := Vocabulary.termOrEmpty constraint.operator
  rightOperand := constraint.rightOperand

end Constraint

namespace OdrlRule

def toDocument (rule : OdrlRule) : RuleDocument where
  action := Vocabulary.termOrEmpty rule.action
  target := rule.target
  constraints := rule.constraints.map Constraint.toDocument

end OdrlRule

namespace OdrlPolicy

def party (name : String) (required : Bool) : Option String :=
  if required || name ≠ "" then some name else none

def toDocument (policy : OdrlPolicy) (config : CanonicalConfig) : OdrlDocument where
  context := config.odrlContext
  kind := Vocabulary.term policy.kind
  uid := policy.uid
  profile := policy.profile <|> config.defaultProfile
  assigner := party policy.assigner policy.kind.requiresAssigner
  assignee := party policy.assignee policy.kind.requiresAssignee
  target := policy.target
  permission := policy.permission.map OdrlRule.toDocument
  prohibition := policy.prohibition.map OdrlRule.toDocument
  obligation := policy.obligation.map OdrlRule.toDocument

end OdrlPolicy

namespace GenericRule

def toDocument (rule : GenericRule) : GenericRuleDocument where
  ruleType := Vocabulary.termOrEmpty rule.ruleType
  operator := Vocabulary.termOrEmpty rule.operator
  value := rule.value
  description := rule.description

end GenericRule

namespace GenericPolicy

def toDocument (policy : GenericPolicy) : GenericDocument where
  id := policy.id
  name := policy.name
  description := policy.description
  kind := Vocabulary.term policy.kind
  status := Vocabulary.term policy.status
  priority := policy.priority
  targetResources := policy.targetResources.toList
  targetUsers := policy.targetUsers.toList
  rules := policy.rules.map GenericRule.toDocument
  validFrom := policy.validFrom
  validTo := policy.validTo
  notifications := policy.notifications
  enforcement := Vocabulary.term policy.enforcement

end GenericPolicy

namespace Policy

def toDocument (policy : Policy) (config : CanonicalConfig) : PolicyDocument :=
  match policy with
  | .odrl policy => .odrl (policy.toDocument config)
  | .generic policy => .generic policy.toDocument

end Policy

end RightsPolicy
