import RightsPolicy.Proofs.Validation.Requirements

namespace RightsPolicy

namespace ViolationCode

def order : List ViolationCode :=
  [.missingUid, .missingAssigner, .missingAssignee, .missingTarget, .noRules, .missingAction,
    .missingLeftOperand, .missingOperator, .missingRightOperand, .missingName, .missingDescription,
    .missingTargetResources, .missingTargetUsers, .invalidValidityWindow, .missingRuleDescription,
    .missingRuleValue, .missingRuleType, .missingRuleOperator]

def rank (code : ViolationCode) : Nat :=
  order.idxOf code

end ViolationCode

def Location.level : Location → List Nat
  | .policy => [0]
  | .rule none index => [1, index]
  | .rule (some partition) index => [1, Vocabulary.index partition, index]
  | .constraint partition ruleIndex index => [2, Vocabulary.index partition, ruleIndex, index]

namespace Violation

def place (v : Violation) : List Nat :=
  v.location.level ++ [v.code.rank]

def Precedes (v w : Violation) : Prop :=
  v.place < w.place

theorem precedes_irrefl (v : Violation) : ¬ v.Precedes v :=
  List.lt_irrefl v.place

theorem precedes_of_level {level : List Nat} {i j : Nat} {v w : Violation} (hij : i < j)
    (hv : level ++ [i] <+: v.place) (hw : level ++ [j] <+: w.place) : v.Precedes w := by
  obtain ⟨t, ht⟩ := hv
  obtain ⟨u, hu⟩ := hw
  rw [Precedes, ← ht, ← hu, List.append_assoc, List.append_assoc]
  exact List.append_left_lt (List.cons_lt_cons_iff.mpr (.inl hij))

end Violation

structure InOrder (level : List Nat) (vs : List Violation) : Prop where
  rising : vs.Pairwise Violation.Precedes
  within : ∀ v ∈ vs, level <+: v.place

namespace InOrder

variable {level : List Nat}

theorem nodup {vs : List Violation} (h : InOrder level vs) : vs.Nodup := by
  refine h.rising.imp ?_
  rintro v _ hprecedes rfl
  exact v.precedes_irrefl hprecedes

theorem flatMap {α : Type} {items : List α} {key : α → Nat} {check : α → List Violation}
    (hkeys : items.Pairwise fun a b => key a < key b)
    (h : ∀ a ∈ items, InOrder (level ++ [key a]) (check a)) :
    InOrder level (items.flatMap check) where
  rising := by
    refine List.pairwise_flatMap.mpr ⟨fun a ha => (h a ha).rising, ?_⟩
    refine hkeys.imp_of_mem ?_
    intro a b ha hb hab v hv w hw
    exact Violation.precedes_of_level hab ((h a ha).within v hv) ((h b hb).within w hw)
  within v hv := by
    obtain ⟨a, ha, hv⟩ := List.mem_flatMap.mp hv
    exact (List.prefix_append level [key a]).trans ((h a ha).within v hv)

theorem append {i j : Nat} {vs ws : List Violation} (hij : i < j)
    (hv : InOrder (level ++ [i]) vs) (hw : InOrder (level ++ [j]) ws) :
    InOrder level (vs ++ ws) := by
  have h := @flatMap level (Nat × List Violation) [(i, vs), (j, ws)] Prod.fst Prod.snd
    (by simpa using hij) (by simpa using ⟨hv, hw⟩)
  simpa using h

theorem zipIdx {α : Type} {items : List α} {check : α → Nat → List Violation}
    (h : ∀ item index, InOrder (level ++ [index]) (check item index)) :
    InOrder level (items.zipIdx.flatMap fun (item, index) => check item index) := by
  refine @flatMap level (α × Nat) items.zipIdx Prod.snd _ ?_ fun entry _ => h entry.1 entry.2
  rw [← List.pairwise_map, List.zipIdx_map_snd]
  exact List.pairwise_lt_range'

theorem violationIf (unmet : Bool) (code : ViolationCode) (location : Location)
    (field : String) :
    InOrder (location.level ++ [code.rank]) (violationIf unmet code location field) where
  rising := by cases unmet <;> simp [RightsPolicy.violationIf]
  within v hv := by
    obtain ⟨_, rfl⟩ := mem_violationIf.mp hv
    exact List.prefix_rfl

theorem checks (location : Location) (codes : List ViolationCode)
    (hranks : codes.Pairwise fun a b => a.rank < b.rank)
    (items : List (Bool × ViolationCode × String))
    (hcodes : (items.map fun item => item.2.1) = codes) :
    InOrder location.level
      (items.flatMap fun item => RightsPolicy.violationIf item.1 item.2.1 location item.2.2) := by
  rw [← hcodes, List.pairwise_map] at hranks
  exact .flatMap hranks fun item _ => violationIf item.1 item.2.1 location item.2.2

end InOrder

theorem Constraint.violations_inOrder (constraint : Constraint) (location : Location) :
    InOrder location.level (constraint.violations location) := by
  have h := InOrder.checks location [.missingLeftOperand, .missingOperator, .missingRightOperand]
    (by decide)
    [(constraint.leftOperand.isNone, .missingLeftOperand, "leftOperand"),
      (constraint.operator.isNone, .missingOperator, "operator"),
      (Text.isBlank constraint.rightOperand, .missingRightOperand, "rightOperand")] rfl
  simpa [violations] using h

namespace OdrlPolicy

theorem partitions_rise : (Vocabulary.values (α := Partition)).Pairwise fun a b =>
    Vocabulary.index a < Vocabulary.index b := by
  decide

theorem inOrder_violationsIn {policy : OdrlPolicy} {level : List Nat}
    {check : Partition → OdrlRule → Nat → List Violation}
    (h : ∀ partition rule index,
      InOrder (level ++ [Vocabulary.index partition, index]) (check partition rule index)) :
    InOrder level ((Vocabulary.values (α := Partition)).flatMap (policy.violationsIn check)) := by
  refine .flatMap partitions_rise ?_
  intro partition _
  refine .zipIdx ?_
  intro rule index
  simpa using h partition rule index

theorem actionViolations_inOrder (partition : Partition) (rule : OdrlRule) (index : Nat) :
    InOrder (Location.rule (some partition) index).level
      (actionViolations partition rule index) := by
  have h := InOrder.checks (.rule (some partition) index) [.missingAction] (by decide)
    [(rule.action.isNone, .missingAction, "action")] rfl
  simpa [actionViolations] using h

theorem constraintViolations_inOrder (partition : Partition) (rule : OdrlRule) (index : Nat) :
    InOrder [2, Vocabulary.index partition, index] (constraintViolations partition rule index) := by
  refine @InOrder.zipIdx _ _ rule.constraints
    (fun constraint place => constraint.violations (.constraint partition index place)) ?_
  intro constraint place
  exact constraint.violations_inOrder (.constraint partition index place)

theorem fieldViolations_inOrder (policy : OdrlPolicy) (isEmpty : Bool) :
    InOrder (Location.level .policy)
      (policy.fieldViolations ++ violationIf isEmpty .noRules .policy "rules") := by
  have h := InOrder.checks .policy
    [.missingUid, .missingAssigner, .missingAssignee, .missingTarget, .noRules] (by decide)
    [(Text.isBlank policy.uid, .missingUid, "uid"),
      (policy.kind.requiresAssigner && Text.isBlank policy.assigner, .missingAssigner, "assigner"),
      (policy.kind.requiresAssignee && Text.isBlank policy.assignee, .missingAssignee, "assignee"),
      (Text.isBlank policy.target, .missingTarget, "target"), (isEmpty, .noRules, "rules")] rfl
  simpa [fieldViolations] using h

theorem violationsIn_eq_nil {policy : OdrlPolicy} (h : policy.ruleCount = 0)
    (check : Partition → OdrlRule → Nat → List Violation) :
    (Vocabulary.values (α := Partition)).flatMap (policy.violationsIn check) = [] := by
  refine List.flatMap_eq_nil_iff.mpr ?_
  intro partition _
  rw [violationsIn, ruleCount_eq_zero_iff.mp h partition]
  rfl

theorem violations_eq (policy : OdrlPolicy) : policy.violations =
    [(0, policy.fieldViolations ++ violationIf (policy.ruleCount = 0) .noRules .policy "rules"),
      (1, (Vocabulary.values (α := Partition)).flatMap (policy.violationsIn actionViolations)),
      (2, (Vocabulary.values (α := Partition)).flatMap
        (policy.violationsIn constraintViolations))].flatMap Prod.snd := by
  unfold violations
  by_cases h : policy.ruleCount = 0
  · simp [h, violationIf, violationsIn_eq_nil h]
  · simp [h, violationIf]

theorem violations_inOrder (policy : OdrlPolicy) : InOrder [] policy.violations := by
  rw [violations_eq]
  refine @InOrder.flatMap [] (Nat × List Violation) _ Prod.fst _ (by simp) ?_
  simp only [List.forall_mem_cons]
  refine ⟨?_, ?_, ?_, nofun⟩
  · exact policy.fieldViolations_inOrder _
  · exact inOrder_violationsIn actionViolations_inOrder
  · exact inOrder_violationsIn constraintViolations_inOrder

end OdrlPolicy

namespace GenericPolicy

theorem fieldViolations_inOrder (policy : GenericPolicy) :
    InOrder (Location.level .policy) policy.fieldViolations := by
  have h := InOrder.checks .policy
    [.missingName, .missingDescription, .missingTargetResources, .missingTargetUsers,
      .invalidValidityWindow] (by decide)
    [(Text.isBlank policy.name, .missingName, "name"),
      (Text.isBlank policy.description, .missingDescription, "description"),
      (policy.targetResources.toList.all Text.isBlank, .missingTargetResources, "targetResources"),
      (policy.targetUsers.toList.all Text.isBlank, .missingTargetUsers, "targetUsers"),
      (policy.isWindowEmpty, .invalidValidityWindow, "validTo")] rfl
  simpa [fieldViolations] using h

theorem ruleViolations_inOrder (rule : GenericRule) (index : Nat) :
    InOrder (Location.rule none index).level (ruleViolations rule index) := by
  have h := InOrder.checks (.rule none index)
    [.missingRuleDescription, .missingRuleValue, .missingRuleType, .missingRuleOperator] (by decide)
    [(Text.isBlank rule.description, .missingRuleDescription, "description"),
      (Text.isBlank rule.value, .missingRuleValue, "value"),
      (rule.ruleType.isNone, .missingRuleType, "type"),
      (rule.operator.isNone, .missingRuleOperator, "operator")] rfl
  simpa [ruleViolations] using h

theorem violations_inOrder (policy : GenericPolicy) : InOrder [] policy.violations := by
  rw [violations]
  exact .append Nat.zero_lt_one policy.fieldViolations_inOrder (.zipIdx ruleViolations_inOrder)

end GenericPolicy

namespace Policy

theorem violations_inOrder (policy : Policy) : InOrder [] policy.violations := by
  cases policy with
  | odrl policy => exact policy.violations_inOrder
  | generic policy => exact policy.violations_inOrder

theorem violations_exact (policy : Policy) :
    (∀ v, v ∈ policy.violations ↔ policy.Unmet v) ∧ policy.violations.Nodup ∧
      policy.violations.Pairwise Violation.Precedes := by
  have horder := policy.violations_inOrder
  exact ⟨fun v => mem_violations_iff, horder.nodup, horder.rising⟩

end Policy

end RightsPolicy
