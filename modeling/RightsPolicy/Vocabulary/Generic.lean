import RightsPolicy.Vocabulary.Basic

namespace RightsPolicy

inductive GenericKind where
  | access
  | usage
  | retention
  | sharing
  deriving DecidableEq, Repr

def GenericKind.term : GenericKind → String
  | .access => "access"
  | .usage => "usage"
  | .retention => "retention"
  | .sharing => "sharing"

instance : Vocabulary GenericKind where
  label := "generic policy kind"
  values :=
    [.access, .usage, .retention, .sharing]
  term := GenericKind.term
  complete a := by cases a <;> decide
  distinct := by decide
  written := by decide

instance : Inhabited GenericKind where
  default := .access

inductive RuleType where
  | usageCount
  | timeLimit
  | location
  | purpose
  | userRole
  | dataClassification
  deriving DecidableEq, Repr

def RuleType.term : RuleType → String
  | .usageCount => "usage_count"
  | .timeLimit => "time_limit"
  | .location => "location"
  | .purpose => "purpose"
  | .userRole => "user_role"
  | .dataClassification => "data_classification"

instance : Vocabulary RuleType where
  label := "rule type"
  values :=
    [.usageCount, .timeLimit, .location, .purpose, .userRole, .dataClassification]
  term := RuleType.term
  complete a := by cases a <;> decide
  distinct := by decide
  written := by decide

inductive ComparisonOperator where
  | equals
  | notEquals
  | greaterThan
  | lessThan
  | contains
  | notContains
  deriving DecidableEq, Repr

def ComparisonOperator.term : ComparisonOperator → String
  | .equals => "equals"
  | .notEquals => "not_equals"
  | .greaterThan => "greater_than"
  | .lessThan => "less_than"
  | .contains => "contains"
  | .notContains => "not_contains"

instance : Vocabulary ComparisonOperator where
  label := "comparison operator"
  values :=
    [.equals, .notEquals, .greaterThan, .lessThan, .contains, .notContains]
  term := ComparisonOperator.term
  complete a := by cases a <;> decide
  distinct := by decide
  written := by decide

inductive Status where
  | draft
  | active
  | inactive
  deriving DecidableEq, Repr

def Status.term : Status → String
  | .draft => "draft"
  | .active => "active"
  | .inactive => "inactive"

instance : Vocabulary Status where
  label := "policy status"
  values :=
    [.draft, .active, .inactive]
  term := Status.term
  complete a := by cases a <;> decide
  distinct := by decide
  written := by decide

instance : Inhabited Status where
  default := .draft

inductive Enforcement where
  | strict
  | warning
  | logOnly
  deriving DecidableEq, Repr

def Enforcement.term : Enforcement → String
  | .strict => "strict"
  | .warning => "warning"
  | .logOnly => "log_only"

instance : Vocabulary Enforcement where
  label := "enforcement mode"
  values :=
    [.strict, .warning, .logOnly]
  term := Enforcement.term
  complete a := by cases a <;> decide
  distinct := by decide
  written := by decide

instance : Inhabited Enforcement where
  default := .strict

end RightsPolicy
