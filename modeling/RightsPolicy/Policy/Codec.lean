import RightsPolicy.Json.Shape
import RightsPolicy.Policy.Generic
import RightsPolicy.Policy.Rule

namespace RightsPolicy

namespace RuleId

def codec : Codec RuleId where
  write id := Codec.word64.write id.value
  read value := (Codec.word64.read value).map RuleId.mk

end RuleId

namespace PolicyKey

def codec : Codec PolicyKey where
  write key := Codec.text.write key.text
  read value := (Codec.text.read value).map PolicyKey.mk

end PolicyKey

namespace Constraint

def codec : Codec Constraint :=
  Shape.codec
    (.cons (.nullable "left_operand" (.term (α := LeftOperand)))
      (.cons (.nullable "operator" (.term (α := ConstraintOperator)))
        (.cons (.required "right_operand" .text) .nil)))
    (fun constraint =>
      (constraint.leftOperand, constraint.operator, constraint.rightOperand, ()))
    (fun (leftOperand, operator, rightOperand, ()) => ⟨leftOperand, operator, rightOperand⟩)

end Constraint

namespace OdrlRule

def codec : Codec OdrlRule :=
  Shape.codec
    (.cons (.required "id" RuleId.codec)
      (.cons (.nullable "action" (.term (α := Action)))
        (.cons (.nullable "target" .text)
          (.cons (.required "constraints" (.list Constraint.codec)) .nil))))
    (fun rule => (rule.id, rule.action, rule.target, rule.constraints, ()))
    (fun (id, action, target, constraints, ()) => ⟨id, action, target, constraints⟩)

end OdrlRule

namespace GenericRule

def codec : Codec GenericRule :=
  Shape.codec
    (.cons (.required "id" RuleId.codec)
      (.cons (.nullable "rule_type" (.term (α := RuleType)))
        (.cons (.nullable "operator" (.term (α := ComparisonOperator)))
          (.cons (.required "value" .text)
            (.cons (.required "description" .text) .nil)))))
    (fun rule => (rule.id, rule.ruleType, rule.operator, rule.value, rule.description, ()))
    (fun (id, ruleType, operator, value, description, ()) =>
      ⟨id, ruleType, operator, value, description⟩)

end GenericRule

namespace Notifications

def codec : Codec Notifications :=
  Shape.codec
    (.cons (.withDefault "onViolation" .flag false)
      (.cons (.withDefault "onExpiry" .flag false)
        (.cons (.listOf "recipients" .text) .nil)))
    (fun notifications =>
      (notifications.onViolation, notifications.onExpiry, notifications.recipients, ()))
    (fun (onViolation, onExpiry, recipients, ()) => ⟨onViolation, onExpiry, recipients⟩)

end Notifications

end RightsPolicy
