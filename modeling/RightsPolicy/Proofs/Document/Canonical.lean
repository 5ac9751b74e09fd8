import RightsPolicy.Document.Codec
import RightsPolicy.Document.Export
import RightsPolicy.Proofs.Json.Tidy
import RightsPolicy.Proofs.Policy.SameButIds

namespace RightsPolicy

namespace Json

def memberIf (present : Prop) [Decidable present] (name : String) (value : Json) :
    List (String × Json) :=
  if present then [(name, value)] else []

def memberOf (name : String) (value? : Option Json) : List (String × Json) :=
  value?.toList.map fun value => (name, value)

end Json

namespace Member

variable {α : Type} {name : String} {codec : Codec α}

def written (member : Member α) (a : α) : List (String × Json) :=
  if member.isOmitted a then [] else [(member.name, member.codec.write a)]

theorem written_required (a : α) : (required name codec).written a = [(name, codec.write a)] :=
  rfl

theorem written_withDefault (a value : α) :
    (withDefault name codec value).written a = [(name, codec.write a)] :=
  rfl

theorem written_optional (value : Option α) :
    (optional name codec).written value = Json.memberOf name (value.map codec.write) := by
  cases value <;> rfl

theorem written_listOf {β : Type} {f : β → α} {json : β → Json}
    (h : ∀ b, codec.write (f b) = json b) (items : List β) :
    (listOf name codec).written (items.map f) =
      Json.memberIf (items ≠ []) name (.array (items.map json)) := by
  have hjson : codec.write ∘ f = json := funext h
  rw [← hjson, ← List.map_map]
  cases items <;> rfl

theorem written_texts (texts : List String) : (listOf name .text).written texts =
    Json.memberIf (texts ≠ []) name (.array (texts.map .text)) := by
  cases texts <;> rfl

end Member

namespace Shape

theorem members_nil : nil.members () = [] :=
  rfl

theorem members_cons {α τ δ : Type} (member : Member α) (rest : Shape τ δ) (a : α) (b : τ) :
    (cons member rest).members (a, b) = member.written a ++ rest.members b := by
  simp only [members, Member.written]
  split <;> rfl

end Shape

namespace Constraint

def canonicalJson (constraint : Constraint) : Json :=
  .object [
    ("leftOperand", .text (Vocabulary.termOrEmpty constraint.leftOperand)),
    ("operator", .text (Vocabulary.termOrEmpty constraint.operator)),
    ("rightOperand", .text constraint.rightOperand)]

theorem write_toDocument (constraint : Constraint) :
    ConstraintDocument.codec.write constraint.toDocument = constraint.canonicalJson :=
  rfl

end Constraint

namespace OdrlRule

def canonicalJson (rule : OdrlRule) : Json :=
  .object (
    [("action", .text (Vocabulary.termOrEmpty rule.action))] ++
    Json.memberOf "target" (rule.target.map .text) ++
    Json.memberIf (rule.constraints ≠ []) "constraint"
      (.array (rule.constraints.map Constraint.canonicalJson)))

theorem write_toDocument (rule : OdrlRule) :
    RuleDocument.codec.write rule.toDocument = rule.canonicalJson := by
  simp only [RuleDocument.codec, Shape.codec, Shape.members_cons, Member.written_withDefault,
    Member.written_optional, Member.written_listOf Constraint.write_toDocument, Shape.members_nil,
    toDocument, canonicalJson, List.append_assoc, List.append_nil]
  rfl

end OdrlRule

namespace OdrlPolicy

def canonicalJson (policy : OdrlPolicy) (config : CanonicalConfig) : Json :=
  .object (
    [("@context", .text config.odrlContext), ("@type", .text (Vocabulary.term policy.kind)),
      ("uid", .text policy.uid)] ++
    Json.memberOf "profile" ((policy.profile <|> config.defaultProfile).map .text) ++
    Json.memberIf (policy.kind.requiresAssigner ∨ policy.assigner ≠ "") "assigner"
      (.text policy.assigner) ++
    Json.memberIf (policy.kind.requiresAssignee ∨ policy.assignee ≠ "") "assignee"
      (.text policy.assignee) ++
    [("target", .text policy.target)] ++
    Json.memberIf (policy.permission ≠ []) "permission"
      (.array (policy.permission.map OdrlRule.canonicalJson)) ++
    Json.memberIf (policy.prohibition ≠ []) "prohibition"
      (.array (policy.prohibition.map OdrlRule.canonicalJson)) ++
    Json.memberIf (policy.obligation ≠ []) "obligation"
      (.array (policy.obligation.map OdrlRule.canonicalJson)))

theorem memberOf_party (name given : String) (required : Bool) :
    Json.memberOf name ((party given required).map Codec.text.write) =
      Json.memberIf (required ∨ given ≠ "") name (.text given) := by
  by_cases hgiven : given = ""
  · cases required <;> simp [party, Json.memberOf, Json.memberIf, hgiven, Codec.text]
  · simp [party, Json.memberOf, Json.memberIf, hgiven, Codec.text]

theorem write_toDocument (policy : OdrlPolicy) (config : CanonicalConfig) :
    OdrlDocument.codec.write (policy.toDocument config) = policy.canonicalJson config := by
  simp only [OdrlDocument.codec, Shape.codec, Shape.members_cons, Member.written_required,
    Member.written_withDefault, Member.written_optional, memberOf_party,
    Member.written_listOf OdrlRule.write_toDocument, Shape.members_nil, toDocument, canonicalJson,
    List.append_assoc, List.append_nil]
  rfl

end OdrlPolicy

namespace GenericRule

def canonicalJson (rule : GenericRule) : Json :=
  .object [
    ("type", .text (Vocabulary.termOrEmpty rule.ruleType)),
    ("operator", .text (Vocabulary.termOrEmpty rule.operator)),
    ("value", .text rule.value),
    ("description", .text rule.description)]

theorem write_toDocument (rule : GenericRule) :
    GenericRuleDocument.codec.write rule.toDocument = rule.canonicalJson :=
  rfl

end GenericRule

namespace Notifications

def canonicalJson (notifications : Notifications) : Json :=
  .object (
    [("onViolation", .bool notifications.onViolation),
      ("onExpiry", .bool notifications.onExpiry)] ++
    Json.memberIf (notifications.recipients ≠ []) "recipients"
      (.array (notifications.recipients.map .text)))

theorem write_codec (notifications : Notifications) :
    codec.write notifications = notifications.canonicalJson := by
  simp only [codec, Shape.codec, Shape.members_cons, Member.written_withDefault,
    Member.written_texts, Shape.members_nil, canonicalJson, List.append_nil]
  rfl

end Notifications

namespace GenericPolicy

def canonicalJson (policy : GenericPolicy) : Json :=
  .object (
    Json.memberOf "id" (policy.id.map fun id => .integer id.toNat) ++
    [("name", .text policy.name), ("description", .text policy.description),
      ("kind", .text (Vocabulary.term policy.kind)),
      ("status", .text (Vocabulary.term policy.status)),
      ("priority", .integer policy.priority.toInt)] ++
    Json.memberIf (policy.targetResources.toList ≠ []) "targetResources"
      (.array (policy.targetResources.toList.map .text)) ++
    Json.memberIf (policy.targetUsers.toList ≠ []) "targetUsers"
      (.array (policy.targetUsers.toList.map .text)) ++
    Json.memberIf (policy.rules ≠ []) "rules"
      (.array (policy.rules.map GenericRule.canonicalJson)) ++
    Json.memberOf "validFrom" (policy.validFrom.map fun t => .text (Timestamp.text t)) ++
    Json.memberOf "validTo" (policy.validTo.map fun t => .text (Timestamp.text t)) ++
    [("notifications", policy.notifications.canonicalJson),
      ("enforcement", .text (Vocabulary.term policy.enforcement))])

theorem write_toDocument (policy : GenericPolicy) :
    GenericDocument.codec.write policy.toDocument = policy.canonicalJson := by
  simp only [GenericDocument.codec, Shape.codec, Shape.members_cons, Member.written_required,
    Member.written_withDefault, Member.written_optional,
    Member.written_listOf GenericRule.write_toDocument, Member.written_texts, Shape.members_nil,
    Notifications.write_codec, toDocument, canonicalJson, List.append_assoc, List.append_nil]
  rfl

end GenericPolicy

namespace Policy

def canonicalJson (policy : Policy) (config : CanonicalConfig) : Json :=
  match policy with
  | .odrl policy => policy.canonicalJson config
  | .generic policy => policy.canonicalJson

theorem toJson_toDocument (policy : Policy) (config : CanonicalConfig) :
    (policy.toDocument config).toJson = policy.canonicalJson config := by
  cases policy with
  | odrl policy => exact policy.write_toDocument config
  | generic policy => exact policy.write_toDocument

end Policy

theorem ConstraintDocument.tidy (document : ConstraintDocument) : (codec.write document).Tidy :=
  Shape.tidy_codec (by decide) (List.cons_ne_nil _ _)
    ⟨fun _ => .text _, fun _ => .text _, fun _ => .text _, trivial⟩

theorem RuleDocument.tidy (document : RuleDocument) : (codec.write document).Tidy :=
  Shape.tidy_codec (by decide) (List.cons_ne_nil _ _)
    ⟨fun _ => .text _, Member.tidy_optional_text _,
      Member.tidy_listOf fun constraint _ => constraint.tidy, trivial⟩

theorem OdrlDocument.tidy (document : OdrlDocument) : (codec.write document).Tidy :=
  Shape.tidy_codec (by decide) (List.cons_ne_nil _ _)
    ⟨fun _ => .text _, fun _ => .text _, fun _ => .text _, Member.tidy_optional_text _,
      Member.tidy_optional_text _, Member.tidy_optional_text _, fun _ => .text _,
      Member.tidy_listOf fun rule _ => rule.tidy, Member.tidy_listOf fun rule _ => rule.tidy,
      Member.tidy_listOf fun rule _ => rule.tidy, trivial⟩

theorem GenericRuleDocument.tidy (document : GenericRuleDocument) : (codec.write document).Tidy :=
  Shape.tidy_codec (by decide) (List.cons_ne_nil _ _)
    ⟨fun _ => .text _, fun _ => .text _, fun _ => .text _, fun _ => .text _, trivial⟩

theorem Notifications.tidy (notifications : Notifications) : (codec.write notifications).Tidy :=
  Shape.tidy_codec (by decide) (List.cons_ne_nil _ _)
    ⟨fun _ => .bool _, fun _ => .bool _, Member.tidy_texts _, trivial⟩

theorem GenericDocument.tidy (document : GenericDocument) : (codec.write document).Tidy := by
  refine Shape.tidy_codec (by decide) ?_
    ⟨Member.tidy_optional fun _ _ => .integer _, fun _ => .text _, fun _ => .text _,
      fun _ => .text _, fun _ => .text _, fun _ => .integer _, Member.tidy_texts _,
      Member.tidy_texts _, Member.tidy_listOf fun rule _ => rule.tidy,
      Member.tidy_optional_timestamp _, Member.tidy_optional_timestamp _,
      fun _ => document.notifications.tidy, fun _ => .text _, trivial⟩
  cases document.id <;> exact List.cons_ne_nil _ _

theorem PolicyDocument.tidy (document : PolicyDocument) : document.toJson.Tidy := by
  cases document with
  | odrl document => exact document.tidy
  | generic document => exact document.tidy

theorem Policy.canonical_json (policy : Policy) (config : CanonicalConfig) :
    (policy.toDocument config).toJson = policy.canonicalJson config ∧
    (policy.toDocument config).toJson.Tidy ∧
    ∀ other : Policy, policy.SameButIds other →
      (other.toDocument config).toJson = (policy.toDocument config).toJson := by
  refine ⟨policy.toJson_toDocument config, (policy.toDocument config).tidy, ?_⟩
  intro other hother
  rw [hother.toDocument_eq]

end RightsPolicy
