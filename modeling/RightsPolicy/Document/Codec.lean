import RightsPolicy.Document.Basic
import RightsPolicy.Policy.Codec

namespace RightsPolicy

namespace ConstraintDocument

def codec : Codec ConstraintDocument :=
  Shape.codec
    (.cons (.withDefault "leftOperand" .text "")
      (.cons (.withDefault "operator" .text "")
        (.cons (.withDefault "rightOperand" .scalar "") .nil)))
    (fun document => (document.leftOperand, document.operator, document.rightOperand, ()))
    (fun (leftOperand, operator, rightOperand, ()) => ⟨leftOperand, operator, rightOperand⟩)

end ConstraintDocument

namespace RuleDocument

def codec : Codec RuleDocument :=
  Shape.codec
    (.cons (.withDefault "action" .text "")
      (.cons (.optional "target" .text)
        (.cons (.listOf "constraint" ConstraintDocument.codec) .nil)))
    (fun document => (document.action, document.target, document.constraints, ()))
    (fun (action, target, constraints, ()) => ⟨action, target, constraints⟩)

end RuleDocument

namespace OdrlDocument

def codec : Codec OdrlDocument :=
  Shape.codec
    (.cons (.required "@context" .text)
      (.cons (.required "@type" .text)
        (.cons (.withDefault "uid" .text "")
          (.cons (.optional "profile" .text)
            (.cons (.optional "assigner" .text)
              (.cons (.optional "assignee" .text)
                (.cons (.withDefault "target" .text "")
                  (.cons (.listOf "permission" RuleDocument.codec)
                    (.cons (.listOf "prohibition" RuleDocument.codec)
                      (.cons (.listOf "obligation" RuleDocument.codec) .nil))))))))))
    (fun document =>
      (document.context, document.kind, document.uid, document.profile, document.assigner,
        document.assignee, document.target, document.permission, document.prohibition,
        document.obligation, ()))
    (fun (context, kind, uid, profile, assigner, assignee, target, permission, prohibition,
        obligation, ()) =>
      ⟨context, kind, uid, profile, assigner, assignee, target, permission, prohibition,
        obligation⟩)

end OdrlDocument

namespace GenericRuleDocument

def codec : Codec GenericRuleDocument :=
  Shape.codec
    (.cons (.withDefault "type" .text "")
      (.cons (.withDefault "operator" .text "")
        (.cons (.withDefault "value" .scalar "")
          (.cons (.withDefault "description" .text "") .nil))))
    (fun document =>
      (document.ruleType, document.operator, document.value, document.description, ()))
    (fun (ruleType, operator, value, description, ()) => ⟨ruleType, operator, value, description⟩)

end GenericRuleDocument

namespace GenericDocument

def codec : Codec GenericDocument :=
  Shape.codec
    (.cons (.optional "id" .word64)
      (.cons (.required "name" .text)
        (.cons (.withDefault "description" .text "")
          (.cons (.required "kind" .text)
            (.cons (.withDefault "status" .text "")
              (.cons (.withDefault "priority" .int32 0)
                (.cons (.listOf "targetResources" .text)
                  (.cons (.listOf "targetUsers" .text)
                    (.cons (.listOf "rules" GenericRuleDocument.codec)
                      (.cons (.optional "validFrom" .timestamp)
                        (.cons (.optional "validTo" .timestamp)
                          (.cons
                            (.withDefault "notifications" Notifications.codec
                              Notifications.silent)
                            (.cons (.withDefault "enforcement" .text "") .nil)))))))))))))
    (fun document =>
      (document.id, document.name, document.description, document.kind, document.status,
        document.priority, document.targetResources, document.targetUsers, document.rules,
        document.validFrom, document.validTo, document.notifications, document.enforcement, ()))
    (fun (id, name, description, kind, status, priority, targetResources, targetUsers, rules,
        validFrom, validTo, notifications, enforcement, ()) =>
      ⟨id, name, description, kind, status, priority, targetResources, targetUsers, rules,
        validFrom, validTo, notifications, enforcement⟩)

end GenericDocument

inductive DocumentError where
  | malformed
  | neitherFamily
  deriving DecidableEq, Repr

/-- One text stands for every error of syntax, of a number's size and of depth. -/
def DocumentError.message : DocumentError → String
  | .malformed => "the text is not a single JSON value"
  | .neitherFamily => "data did not match any variant of untagged enum PolicyDocument"

namespace PolicyDocument

def toJson : PolicyDocument → Json
  | .odrl document => OdrlDocument.codec.write document
  | .generic document => GenericDocument.codec.write document

def ofJson? (value : Json) : Option PolicyDocument :=
  match OdrlDocument.codec.read value with
  | .ok document => some (.odrl document)
  | .error _ =>
    match GenericDocument.codec.read value with
    | .ok document => some (.generic document)
    | .error _ => none

def layoutFor (pretty : Bool) : Json.Layout :=
  if pretty then .indented else .compact

def render (document : PolicyDocument) (pretty : Bool) : String :=
  document.toJson.render (layoutFor pretty)

/-- Read a document. The value has to be readable as a whole before its family is looked for, and
what follows it is looked at last. -/
def ofText (s : String) : Except DocumentError PolicyDocument :=
  let reading := Json.ofText s
  if reading.value.isReadable then
    match ofJson? reading.value with
    | some document => if reading.rest.isEmpty then .ok document else .error .malformed
    | none => .error .neitherFamily
  else
    .error .malformed

end PolicyDocument

end RightsPolicy
