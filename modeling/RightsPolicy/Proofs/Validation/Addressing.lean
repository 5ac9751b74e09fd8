import RightsPolicy.Document.Codec
import RightsPolicy.Document.Export
import RightsPolicy.Proofs.Json.Path
import RightsPolicy.Proofs.Validation.Requirements

namespace RightsPolicy

def Location.places : Location → List (String × Nat)
  | .policy => []
  | .rule (some partition) index => [(Vocabulary.term partition, index)]
  | .rule none index => [("rules", index)]
  | .constraint partition ruleIndex index =>
    [(Vocabulary.term partition, ruleIndex), ("constraint", index)]

theorem Partition.isPathKey (partition : Partition) :
    Json.IsPathKey (Vocabulary.term partition) := by
  cases partition <;> decide

namespace Violation

variable {v : Violation}

theorem toList_path : v.path.toList = ['.'].intercalate
    (v.location.places.map (fun (name, n) => Json.indexedPart name n) ++ [v.field.toList]) := by
  obtain ⟨code, location, field⟩ := v
  rcases location with _ | ⟨_ | partition, index⟩ | ⟨partition, ruleIndex, index⟩ <;>
    simp [path, Location.text, Location.places, Json.indexedPart, List.intercalate]

theorem pathSteps?_path (hfield : Json.IsPathKey v.field) :
    Json.pathSteps? v.path = some (Json.indexSteps v.location.places ++ [.key v.field]) := by
  refine Json.pathSteps?_eq toList_path ?_ hfield
  have hrules : Json.IsPathKey "rules" := by decide
  have hconstraint : Json.IsPathKey "constraint" := by decide
  rcases v.location with _ | ⟨_ | partition, index⟩ | ⟨partition, ruleIndex, index⟩ <;>
    simp [Location.places, Partition.isPathKey, hrules, hconstraint]

theorem place_path (hfield : Json.IsPathKey v.field) (document : Json) :
    document.place v.path =
      document.follow (Json.indexSteps v.location.places ++ [.key v.field]) := by
  simp only [Json.place, pathSteps?_path hfield]

end Violation

def Policy.validTo? : Policy → Option Instant
  | .odrl _ => none
  | .generic policy => policy.validTo

def Policy.PointsAt (policy : Policy) (document : Json) (code : ViolationCode)
    (place : Json.Place) : Prop :=
  match code with
  | .missingTargetResources | .missingTargetUsers =>
    place = .absent ∨
      ∃ texts : List String, place = .value (.array (texts.map .text)) ∧
        ∀ s ∈ texts, Text.Blank s
  | .noRules =>
    place = .absent ∧
      ∀ partition : Partition, document.place (Vocabulary.term partition) = .absent
  | .invalidValidityWindow =>
    ∃ last ∈ policy.validTo?, document.place "validTo" = place ∧
      place = .value (.text (Timestamp.text last))
  | _ => ∃ s, place = .value (.text s) ∧ Text.Blank s

theorem Vocabulary.blank_termOrEmpty {α : Type} [DecidableEq α] [Vocabulary α] {value : Option α}
    (h : value = none) : Text.Blank (termOrEmpty value) := by
  rw [h]
  rfl

namespace OdrlPolicy

variable {policy : OdrlPolicy} {config : CanonicalConfig} {partition : Partition}
  {ruleIndex index : Nat} {rule : OdrlRule} {constraint : Constraint}

theorem follow_rule (hrule : (policy.rulesIn partition)[ruleIndex]? = some rule)
    (rest : List Json.PathStep) :
    (OdrlDocument.codec.write (policy.toDocument config)).follow
        (.key (Vocabulary.term partition) :: .index ruleIndex :: rest) =
      (RuleDocument.codec.write rule.toDocument).follow rest := by
  have hitem : ((policy.rulesIn partition).map OdrlRule.toDocument)[ruleIndex]? =
      some rule.toDocument := by
    rw [List.getElem?_map, hrule, Option.map_some]
  cases partition <;> exact Shape.follow_item rfl hitem rest

theorem follow_constraint (hrule : (policy.rulesIn partition)[ruleIndex]? = some rule)
    (hconstraint : rule.constraints[index]? = some constraint) (rest : List Json.PathStep) :
    (OdrlDocument.codec.write (policy.toDocument config)).follow
        (.key (Vocabulary.term partition) :: .index ruleIndex :: .key "constraint" ::
          .index index :: rest) =
      (ConstraintDocument.codec.write constraint.toDocument).follow rest := by
  have hitem : (rule.constraints.map Constraint.toDocument)[index]? =
      some constraint.toDocument := by
    rw [List.getElem?_map, hconstraint, Option.map_some]
  rw [follow_rule hrule]
  exact Shape.follow_item rfl hitem rest

theorem isPathKey_of_unmet {v : Violation} (h : policy.Unmet v) : Json.IsPathKey v.field := by
  cases h <;> (dsimp only; decide)

theorem pointsAt_of_unmet {v : Violation} (h : policy.Unmet v) :
    (Policy.odrl policy).PointsAt (OdrlDocument.codec.write (policy.toDocument config)) v.code
      ((OdrlDocument.codec.write (policy.toDocument config)).follow
        (Json.indexSteps v.location.places ++ [.key v.field])) := by
  cases h with
  | uid h => exact ⟨policy.uid, Shape.follow_codec rfl [], h⟩
  | assigner hkind h =>
    refine ⟨policy.assigner, Shape.follow_codec ?_ [], h⟩
    rw [toDocument, requiresAssigner_iff.mpr hkind]
    rfl
  | assignee hkind h =>
    refine ⟨policy.assignee, Shape.follow_codec ?_ [], h⟩
    rw [toDocument, requiresAssignee_iff.mpr hkind]
    rfl
  | target h => exact ⟨policy.target, Shape.follow_codec rfl [], h⟩
  | rules h =>
    refine ⟨Shape.follow_codec_absent rfl, ?_⟩
    intro partition
    rw [Json.place_key partition.isPathKey]
    have hempty : (policy.rulesIn partition).map OdrlRule.toDocument = [] :=
      congrArg _ (h partition)
    cases partition <;> exact (Shape.follow_list rfl).trans (if_pos (List.isEmpty_iff.mpr hempty))
  | @action _ _ rule hrule h =>
    refine ⟨Vocabulary.termOrEmpty rule.action, ?_, Vocabulary.blank_termOrEmpty h⟩
    exact (follow_rule hrule _).trans (Shape.follow_codec rfl [])
  | @leftOperand _ _ _ _ constraint hrule hconstraint h =>
    refine ⟨Vocabulary.termOrEmpty constraint.leftOperand, ?_, Vocabulary.blank_termOrEmpty h⟩
    exact (follow_constraint hrule hconstraint _).trans (Shape.follow_codec rfl [])
  | @operator _ _ _ _ constraint hrule hconstraint h =>
    refine ⟨Vocabulary.termOrEmpty constraint.operator, ?_, Vocabulary.blank_termOrEmpty h⟩
    exact (follow_constraint hrule hconstraint _).trans (Shape.follow_codec rfl [])
  | @rightOperand _ _ _ _ constraint hrule hconstraint h =>
    refine ⟨constraint.rightOperand, ?_, h⟩
    exact (follow_constraint hrule hconstraint _).trans (Shape.follow_codec rfl [])

end OdrlPolicy

namespace GenericPolicy

variable {policy : GenericPolicy} {index : Nat} {rule : GenericRule}

theorem follow_rule (hrule : policy.rules[index]? = some rule) (rest : List Json.PathStep) :
    (GenericDocument.codec.write policy.toDocument).follow (.key "rules" :: .index index :: rest) =
      (GenericRuleDocument.codec.write rule.toDocument).follow rest := by
  have hitem : (policy.rules.map GenericRule.toDocument)[index]? = some rule.toDocument := by
    rw [List.getElem?_map, hrule, Option.map_some]
  exact Shape.follow_item rfl hitem rest

theorem isPathKey_of_unmet {v : Violation} (h : policy.Unmet v) : Json.IsPathKey v.field := by
  cases h <;> (dsimp only; decide)

theorem blanks_or_absent {name : String} {texts : TextSet}
    (h : (GenericDocument.codec.write policy.toDocument).follow [.key name] =
      if texts.toList.isEmpty then .absent else .value (Codec.text.list.write texts.toList))
    (hblank : ∀ s ∈ texts.toList, Text.Blank s) :
    (GenericDocument.codec.write policy.toDocument).follow [.key name] = .absent ∨
      ∃ texts : List String,
        (GenericDocument.codec.write policy.toDocument).follow [.key name] =
            .value (.array (texts.map .text)) ∧
          ∀ s ∈ texts, Text.Blank s := by
  split at h
  · exact .inl h
  · exact .inr ⟨texts.toList, h, hblank⟩

theorem pointsAt_of_unmet {v : Violation} (h : policy.Unmet v) :
    (Policy.generic policy).PointsAt (GenericDocument.codec.write policy.toDocument) v.code
      ((GenericDocument.codec.write policy.toDocument).follow
        (Json.indexSteps v.location.places ++ [.key v.field])) := by
  cases h with
  | name h => exact ⟨policy.name, Shape.follow_codec rfl [], h⟩
  | description h => exact ⟨policy.description, Shape.follow_codec rfl [], h⟩
  | targetResources h => exact blanks_or_absent (Shape.follow_list rfl) h
  | targetUsers h => exact blanks_or_absent (Shape.follow_list rfl) h
  | @window first last hfirst hlast h =>
    have hkey : Json.IsPathKey "validTo" := by decide
    refine ⟨last, hlast, Json.place_key hkey _, Shape.follow_codec ?_ []⟩
    rw [toDocument, hlast]
    rfl
  | @ruleDescription _ rule hrule h =>
    refine ⟨rule.description, ?_, h⟩
    exact (follow_rule hrule _).trans (Shape.follow_codec rfl [])
  | @ruleValue _ rule hrule h =>
    refine ⟨rule.value, ?_, h⟩
    exact (follow_rule hrule _).trans (Shape.follow_codec rfl [])
  | @ruleType _ rule hrule h =>
    refine ⟨Vocabulary.termOrEmpty rule.ruleType, ?_, Vocabulary.blank_termOrEmpty h⟩
    exact (follow_rule hrule _).trans (Shape.follow_codec rfl [])
  | @ruleOperator _ rule hrule h =>
    refine ⟨Vocabulary.termOrEmpty rule.operator, ?_, Vocabulary.blank_termOrEmpty h⟩
    exact (follow_rule hrule _).trans (Shape.follow_codec rfl [])

end GenericPolicy

namespace Policy

theorem ne_lost_of_pointsAt {policy : Policy} {document : Json} {code : ViolationCode}
    {place : Json.Place} (h : policy.PointsAt document code place) : place ≠ .lost := by
  rintro rfl
  cases code <;> simp [PointsAt] at h

theorem path_pointsAt {policy : Policy} {v : Violation} (h : v ∈ policy.violations)
    (config : CanonicalConfig) :
    (policy.toDocument config).toJson.place v.path ≠ .lost ∧
      policy.PointsAt (policy.toDocument config).toJson v.code
        ((policy.toDocument config).toJson.place v.path) := by
  have hunmet := mem_violations_iff.mp h
  suffices hpoints : policy.PointsAt (policy.toDocument config).toJson v.code
      ((policy.toDocument config).toJson.place v.path) from ⟨ne_lost_of_pointsAt hpoints, hpoints⟩
  cases policy with
  | odrl policy =>
    rw [Violation.place_path (OdrlPolicy.isPathKey_of_unmet hunmet)]
    exact OdrlPolicy.pointsAt_of_unmet hunmet
  | generic policy =>
    rw [Violation.place_path (GenericPolicy.isPathKey_of_unmet hunmet)]
    exact GenericPolicy.pointsAt_of_unmet hunmet

def unfinishedOffer : OdrlPolicy :=
  { OdrlPolicy.new .offer with
    obligation := [⟨⟨1⟩, none, none, [⟨none, none, "EU"⟩]⟩]
    nextRuleId := ⟨2⟩ }

theorem path_pointsAt_unfinishedOffer :
    let v : Violation := ⟨.missingOperator, .constraint .obligation 0 0, "operator"⟩
    let document := (Policy.odrl unfinishedOffer).toDocument default
    v.path = "obligation[0].constraint[0].operator" ∧
      v ∈ (Policy.odrl unfinishedOffer).violations ∧
      (Policy.odrl unfinishedOffer).PointsAt document.toJson .missingOperator
        (document.toJson.place v.path) := by
  intro v document
  have hmem : v ∈ (Policy.odrl unfinishedOffer).violations := by decide
  exact ⟨by decide, hmem, (path_pointsAt hmem default).2⟩

end Policy

end RightsPolicy
