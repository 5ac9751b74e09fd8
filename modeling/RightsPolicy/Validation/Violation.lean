import RightsPolicy.Vocabulary.Odrl

namespace RightsPolicy

inductive ViolationCode where
  | missingUid
  | missingAssigner
  | missingAssignee
  | missingTarget
  | noRules
  | missingAction
  | missingLeftOperand
  | missingOperator
  | missingRightOperand
  | missingName
  | missingDescription
  | missingTargetResources
  | missingTargetUsers
  | invalidValidityWindow
  | missingRuleDescription
  | missingRuleValue
  | missingRuleType
  | missingRuleOperator
  deriving DecidableEq, Repr

def ViolationCode.message : ViolationCode → String
  | .missingUid => "policy uid is required"
  | .missingAssigner => "assigner is required for this policy kind"
  | .missingAssignee => "assignee is required for this policy kind"
  | .missingTarget => "target is required"
  | .noRules => "at least one permission, prohibition or obligation is required"
  | .missingAction => "action is required"
  | .missingLeftOperand => "left operand is required"
  | .missingOperator => "operator is required"
  | .missingRightOperand => "right operand is required"
  | .missingName => "name is required"
  | .missingDescription => "description is required"
  | .missingTargetResources => "at least one target resource is required"
  | .missingTargetUsers => "at least one target user or role is required"
  | .invalidValidityWindow => "end date must be after start date"
  | .missingRuleDescription => "rule description is required"
  | .missingRuleValue => "rule value is required"
  | .missingRuleType => "rule type is required"
  | .missingRuleOperator => "rule operator is required"

inductive Location where
  | policy
  | rule (partition : Option Partition) (index : Nat)
  | constraint (partition : Partition) (ruleIndex index : Nat)
  deriving DecidableEq, Repr

def Location.text : Location → String
  | .policy => ""
  | .rule (some partition) index => Vocabulary.term partition ++ "[" ++ Nat.repr index ++ "]"
  | .rule none index => "rules[" ++ Nat.repr index ++ "]"
  | .constraint partition ruleIndex index =>
    Vocabulary.term partition ++ "[" ++ Nat.repr ruleIndex ++ "].constraint[" ++ Nat.repr index ++
      "]"

structure Violation where
  code : ViolationCode
  location : Location
  field : String
  deriving DecidableEq, Repr

namespace Violation

def path (violation : Violation) : String :=
  match violation.location with
  | .policy => violation.field
  | location => location.text ++ "." ++ violation.field

def text (violation : Violation) : String :=
  violation.path ++ ": " ++ violation.code.message

end Violation

end RightsPolicy
