import RightsPolicy.Policy.Generic

namespace RightsPolicy

structure ConstraintDocument where
  leftOperand : String
  operator : String
  rightOperand : String
  deriving DecidableEq, Repr

structure RuleDocument where
  action : String
  target : Option String
  constraints : List ConstraintDocument
  deriving DecidableEq, Repr

structure OdrlDocument where
  context : String
  kind : String
  uid : String
  profile : Option String
  assigner : Option String
  assignee : Option String
  target : String
  permission : List RuleDocument
  prohibition : List RuleDocument
  obligation : List RuleDocument
  deriving DecidableEq, Repr

structure GenericRuleDocument where
  ruleType : String
  operator : String
  value : String
  description : String
  deriving DecidableEq, Repr

structure GenericDocument where
  id : Option UInt64
  name : String
  description : String
  kind : String
  status : String
  priority : Int32
  targetResources : List String
  targetUsers : List String
  rules : List GenericRuleDocument
  validFrom : Option Instant
  validTo : Option Instant
  notifications : Notifications
  enforcement : String
  deriving DecidableEq

inductive PolicyDocument where
  | odrl (document : OdrlDocument)
  | generic (document : GenericDocument)
  deriving DecidableEq

end RightsPolicy
