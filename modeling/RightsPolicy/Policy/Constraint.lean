import RightsPolicy.Vocabulary.Odrl

namespace RightsPolicy

structure Constraint where
  leftOperand : Option LeftOperand
  operator : Option ConstraintOperator
  rightOperand : String
  deriving DecidableEq, Repr

inductive ConstraintField where
  | leftOperand (value : Option LeftOperand)
  | operator (value : Option ConstraintOperator)
  | rightOperand (value : String)
  deriving DecidableEq, Repr

namespace Constraint

def empty : Constraint :=
  ⟨none, none, ""⟩

def set (constraint : Constraint) : ConstraintField → Constraint
  | .leftOperand value => { constraint with leftOperand := value }
  | .operator value => { constraint with operator := value }
  | .rightOperand value => { constraint with rightOperand := value }

def text (constraint : Constraint) : String :=
  (constraint.leftOperand.map Vocabulary.term).getD "?" ++ " " ++
    (constraint.operator.map Vocabulary.term).getD "?" ++ " '" ++ constraint.rightOperand ++ "'"

end Constraint

end RightsPolicy
