import RightsPolicy.Identifier
import RightsPolicy.Policy.Constraint
import RightsPolicy.Vocabulary.Generic

namespace RightsPolicy

structure OdrlRule where
  id : RuleId
  action : Option Action
  target : Option String
  constraints : List Constraint
  deriving DecidableEq, Repr

inductive OdrlRuleField where
  | action (value : Option Action)
  | target (value : Option String)
  deriving DecidableEq, Repr

namespace OdrlRule

def empty (id : RuleId) : OdrlRule :=
  ⟨id, none, none, []⟩

def set (rule : OdrlRule) : OdrlRuleField → OdrlRule
  | .action value => { rule with action := value }
  | .target value => { rule with target := value }

def text (rule : OdrlRule) : String :=
  (rule.action.map Vocabulary.term).getD "?" ++
    (match rule.target with
      | some target => " on '" ++ target ++ "'"
      | none => "") ++
    if rule.constraints.isEmpty then
      ""
    else
      " where [" ++ ", ".intercalate (rule.constraints.map Constraint.text) ++ "]"

end OdrlRule

structure GenericRule where
  id : RuleId
  ruleType : Option RuleType
  operator : Option ComparisonOperator
  value : String
  description : String
  deriving DecidableEq, Repr

inductive GenericRuleField where
  | ruleType (value : Option RuleType)
  | operator (value : Option ComparisonOperator)
  | value (value : String)
  | description (value : String)
  deriving DecidableEq, Repr

namespace GenericRule

def empty (id : RuleId) : GenericRule :=
  ⟨id, none, none, "", ""⟩

def set (rule : GenericRule) : GenericRuleField → GenericRule
  | .ruleType value => { rule with ruleType := value }
  | .operator value => { rule with operator := value }
  | .value value => { rule with value := value }
  | .description value => { rule with description := value }

end GenericRule

end RightsPolicy
