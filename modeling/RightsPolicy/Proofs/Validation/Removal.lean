import RightsPolicy.Proofs.Policy.Reachable
import RightsPolicy.Proofs.Validation.Relocation

namespace RightsPolicy

namespace OdrlPolicy

variable {policy : OdrlPolicy} {id : RuleId} {partition : Partition} {index : Nat} {rule : OdrlRule}
  {rules : List OdrlRule} {move : Move}

theorem rulesIn_setRulesIn_self (policy : OdrlPolicy) (partition : Partition)
    (rules : List OdrlRule) : (policy.setRulesIn partition rules).rulesIn partition = rules := by
  cases partition <;> rfl

theorem rulesIn_setRulesIn_of_ne (policy : OdrlPolicy) {partition other : Partition}
    (rules : List OdrlRule) (hne : other ≠ partition) :
    (policy.setRulesIn partition rules).rulesIn other = policy.rulesIn other := by
  cases partition <;> cases other <;> first | rfl | exact absurd rfl hne

theorem fieldViolations_setRulesIn (policy : OdrlPolicy) (partition : Partition)
    (rules : List OdrlRule) :
    (policy.setRulesIn partition rules).fieldViolations = policy.fieldViolations := by
  cases partition <;> rfl

theorem ruleCount_setRulesIn (policy : OdrlPolicy) (partition : Partition) (rules : List OdrlRule) :
    (policy.setRulesIn partition rules).ruleCount + (policy.rulesIn partition).length =
      policy.ruleCount + rules.length := by
  cases partition <;> simp only [ruleCount, setRulesIn, rulesIn] <;> omega

theorem location_of_mem_fieldViolations {v : Violation} (h : v ∈ policy.fieldViolations) :
    v.location = .policy := by
  rcases mem_fieldViolations.mp h with ⟨-, rfl⟩ | ⟨-, rfl⟩ | ⟨-, rfl⟩ | ⟨-, rfl⟩ <;> rfl

theorem actionViolations_follows (rule : OdrlRule) :
    Follows fun location => violationIf rule.action.isNone .missingAction location "action" :=
  .violationIf _ _ _

theorem relocate_actionViolations
    (hmove : move (.rule (some partition) index) = some (.rule (some partition) index)) :
    relocate move (actionViolations partition rule index) = actionViolations partition rule index :=
  (actionViolations_follows rule).eq_of_fixed hmove

theorem relocate_constraintViolations (hmove : ∀ place,
      move (.constraint partition index place) = some (.constraint partition index place)) :
    relocate move (constraintViolations partition rule index) =
      constraintViolations partition rule index :=
  relocate_zipIdx_fixed rule.constraints
    (fun constraint place => constraint.violations (.constraint partition index place))
    fun constraint place => constraint.follows.eq_of_fixed (hmove place)

theorem relocate_partitions {check : Partition → OdrlRule → Nat → List Violation}
    (hother : ∀ other rule index, other ≠ partition →
      relocate move (check other rule index) = check other rule index)
    (hrules : relocate move (policy.violationsIn check partition) =
      (policy.setRulesIn partition rules).violationsIn check partition) :
    relocate move ((Vocabulary.values (α := Partition)).flatMap (policy.violationsIn check)) =
      (Vocabulary.values (α := Partition)).flatMap
        ((policy.setRulesIn partition rules).violationsIn check) := by
  rw [relocate_flatMap]
  refine List.flatMap_congr ?_
  intro other _
  by_cases hne : other = partition
  · rw [hne, hrules]
  · rw [violationsIn, violationsIn, rulesIn_setRulesIn_of_ne policy rules hne]
    exact relocate_zipIdx_fixed _ (check other) fun rule index => hother other rule index hne

theorem violations_setRulesIn (hmove : move.Within partition)
    (hactions : relocate move (policy.violationsIn actionViolations partition) =
      (policy.setRulesIn partition rules).violationsIn actionViolations partition)
    (hconstraints : relocate move (policy.violationsIn constraintViolations partition) =
      (policy.setRulesIn partition rules).violationsIn constraintViolations partition)
    (hcount : policy.ruleCount = 0 ↔ (policy.setRulesIn partition rules).ruleCount = 0) :
    (policy.setRulesIn partition rules).violations = relocate move policy.violations := by
  have hfields := relocate_of_policy hmove.policy fun _ => @location_of_mem_fieldViolations policy _
  have hnone := (Follows.violationIf (policy.ruleCount = 0) .noRules "rules").eq_of_fixed
    hmove.policy
  have hallActions := @relocate_partitions _ _ _ move actionViolations
    (fun other _ index hne => relocate_actionViolations (hmove.rule other index hne)) hactions
  have hallConstraints := @relocate_partitions _ _ _ move constraintViolations
    (fun other _ index hne =>
      relocate_constraintViolations fun place => hmove.constraint other index place hne)
    hconstraints
  simp only [violations_eq, List.flatMap_cons, relocate_append, fieldViolations_setRulesIn,
    ← hcount, hfields, hnone, hallActions, hallConstraints]
  rfl

theorem removeRule_eq (hplace : policy.place? id = some (partition, index)) :
    policy.removeRule id =
      .ok (policy.setRulesIn partition ((policy.rulesIn partition).eraseIdx index)) := by
  rw [removeRule, hplace]

theorem ruleCount_eraseIdx (hrule : (policy.rulesIn partition)[index]? = some rule) :
    (policy.setRulesIn partition ((policy.rulesIn partition).eraseIdx index)).ruleCount + 1 =
      policy.ruleCount := by
  have hlt := (List.getElem?_eq_some_iff.mp hrule).1
  have hlength := List.length_eraseIdx_of_lt hlt
  have hcount := ruleCount_setRulesIn policy partition ((policy.rulesIn partition).eraseIdx index)
  omega

theorem violations_eraseIdx (hrule : (policy.rulesIn partition)[index]? = some rule)
    (hcount : policy.ruleCount ≠ 1) :
    (policy.setRulesIn partition ((policy.rulesIn partition).eraseIdx index)).violations =
      relocate (.withoutRule (some partition) index) policy.violations := by
  have hleft := ruleCount_eraseIdx hrule
  refine violations_setRulesIn (Move.withoutRule_within partition index) ?_ ?_ (by omega)
  · rw [violationsIn, violationsIn, rulesIn_setRulesIn_self]
    refine relocate_zipIdx_eraseIdx _ (actionViolations partition) ?_
    intro rule place
    rw [actionViolations, actionViolations_follows rule, Move.withoutRule, if_pos rfl,
      Option.map_map]
    rfl
  · rw [violationsIn, violationsIn, rulesIn_setRulesIn_self]
    refine relocate_zipIdx_eraseIdx _ (constraintViolations partition) ?_
    intro rule place
    have hfollows (constraint : Constraint) (k : Nat) := constraint.follows
      (.withoutRule (some partition) index) (.constraint partition place k)
    simp only [Move.withoutRule, if_true] at hfollows
    rw [constraintViolations, relocate_flatMap]
    cases hwithout : indexWithout index place with
    | none => simp [hfollows, hwithout]
    | some found => simp [hfollows, hwithout, constraintViolations]

theorem filter_location_policy (hcount : policy.ruleCount ≠ 0) :
    (policy.violations.filter fun v => v.location = .policy) = policy.fieldViolations := by
  rw [violations, if_neg hcount, List.filter_append, List.filter_append]
  have hfields : (policy.fieldViolations.filter fun v => v.location = .policy) =
      policy.fieldViolations := by
    refine List.filter_eq_self.mpr ?_
    intro v hv
    exact decide_eq_true (location_of_mem_fieldViolations hv)
  have hactions : (((Vocabulary.values (α := Partition)).flatMap
      (policy.violationsIn actionViolations)).filter fun v => v.location = .policy) = [] := by
    refine List.filter_eq_nil_iff.mpr ?_
    intro v hv
    obtain ⟨_, _, _, -, hv⟩ := mem_flatMap_violationsIn.mp hv
    obtain ⟨-, rfl⟩ := mem_actionViolations.mp hv
    simp
  have hconstraints : (((Vocabulary.values (α := Partition)).flatMap
      (policy.violationsIn constraintViolations)).filter fun v => v.location = .policy) = [] := by
    refine List.filter_eq_nil_iff.mpr ?_
    intro v hv
    obtain ⟨_, _, _, -, hv⟩ := mem_flatMap_violationsIn.mp hv
    obtain ⟨_, _, -, hv⟩ := mem_constraintViolations.mp hv
    rcases Constraint.mem_violations.mp hv with ⟨-, rfl⟩ | ⟨-, rfl⟩ | ⟨-, rfl⟩ <;> simp
  rw [hfields, hactions, hconstraints]
  simp

theorem violations_of_last (hrule : (policy.rulesIn partition)[index]? = some rule)
    (hcount : policy.ruleCount = 1) :
    (policy.setRulesIn partition ((policy.rulesIn partition).eraseIdx index)).violations =
      (policy.violations.filter fun v => v.location = .policy) ++
        [⟨.noRules, .policy, "rules"⟩] := by
  have hleft := ruleCount_eraseIdx hrule
  rw [violations, if_pos (by omega), fieldViolations_setRulesIn,
    filter_location_policy (by omega)]

theorem removeConstraint_eq {place : Nat} (hplace : policy.place? id = some (partition, index))
    (hrule : (policy.rulesIn partition)[index]? = some rule)
    (hlt : place < rule.constraints.length) :
    policy.removeConstraint id place =
      .ok (policy.setRulesIn partition ((policy.rulesIn partition).set index
        { rule with constraints := rule.constraints.eraseIdx place })) := by
  simp only [removeConstraint, editRule, hplace, hrule, if_pos hlt]
  rfl

theorem violations_eraseConstraint {place : Nat}
    (hrule : (policy.rulesIn partition)[index]? = some rule) :
    (policy.setRulesIn partition ((policy.rulesIn partition).set index
        { rule with constraints := rule.constraints.eraseIdx place })).violations =
      relocate (.withoutConstraint partition index place) policy.violations := by
  have hcount := ruleCount_setRulesIn policy partition ((policy.rulesIn partition).set index
    { rule with constraints := rule.constraints.eraseIdx place })
  rw [List.length_set] at hcount
  refine violations_setRulesIn (Move.withoutConstraint_within partition index place) ?_ ?_
    (by omega)
  · rw [violationsIn, violationsIn, rulesIn_setRulesIn_self]
    -- the action of the rule stays, and so does its place
    exact relocate_zipIdx_set (actionViolations partition) hrule (relocate_actionViolations rfl)
      fun _ _ _ => relocate_actionViolations rfl
  · rw [violationsIn, violationsIn, rulesIn_setRulesIn_self]
    refine relocate_zipIdx_set (constraintViolations partition) hrule ?_ ?_
    · refine relocate_zipIdx_eraseIdx rule.constraints
        (fun constraint k => constraint.violations (.constraint partition index k)) ?_
      intro constraint k
      rw [constraint.follows, Move.withoutConstraint, if_pos ⟨rfl, rfl⟩, Option.map_map]
      rfl
    · intro other i hne
      exact relocate_constraintViolations fun k => if_neg fun h => hne h.2

end OdrlPolicy

namespace GenericPolicy

variable {policy : GenericPolicy} {id : RuleId} {index : Nat} {rule : GenericRule}

theorem ruleViolations_follows (rule : GenericRule) : Follows fun location =>
    violationIf (Text.isBlank rule.description) .missingRuleDescription location "description" ++
      violationIf (Text.isBlank rule.value) .missingRuleValue location "value" ++
      violationIf rule.ruleType.isNone .missingRuleType location "type" ++
      violationIf rule.operator.isNone .missingRuleOperator location "operator" :=
  (((Follows.violationIf _ _ _).append (.violationIf _ _ _)).append (.violationIf _ _ _)).append
    (.violationIf _ _ _)

theorem location_of_mem_fieldViolations {v : Violation} (h : v ∈ policy.fieldViolations) :
    v.location = .policy := by
  rcases mem_fieldViolations.mp h with ⟨-, rfl⟩ | ⟨-, rfl⟩ | ⟨-, rfl⟩ | ⟨-, rfl⟩ | ⟨-, rfl⟩ <;> rfl

theorem violations_removeRule (hplace : policy.place? id = some index) :
    ∃ after, policy.removeRule id = .ok after ∧
      after.violations = relocate (.withoutRule none index) policy.violations := by
  have hfields := @relocate_of_policy (.withoutRule none index) policy.fieldViolations rfl
    fun _ => location_of_mem_fieldViolations
  have hrule (rule : GenericRule) (place : Nat) :
      relocate (.withoutRule none index) (ruleViolations rule place) =
        ((indexWithout index place).map (ruleViolations rule)).getD [] := by
    rw [ruleViolations, ruleViolations_follows rule, Move.withoutRule, if_pos rfl, Option.map_map]
    rfl
  have hrules := relocate_zipIdx_eraseIdx policy.rules ruleViolations hrule
  refine ⟨{ policy with rules := policy.rules.eraseIdx index }, by rw [removeRule, hplace], ?_⟩
  rw [violations, violations, relocate_append, hfields, hrules]
  rfl

end GenericPolicy

/-- The removals are told by where the id is found. That is where the rule is, in every policy that
edits lead to. -/
theorem violations_of_removals :
    (∀ (policy : OdrlPolicy) (id : RuleId) (partition : Partition) (index : Nat),
      policy.place? id = some (partition, index) →
        (∃ after, policy.removeRule id = .ok after ∧
          (policy.ruleCount ≠ 1 → after.violations =
            relocate (.withoutRule (some partition) index) policy.violations) ∧
          (policy.ruleCount = 1 → after.violations =
            (policy.violations.filter fun v => v.location = .policy) ++
              [⟨.noRules, .policy, "rules"⟩])) ∧
        ∀ rule, (policy.rulesIn partition)[index]? = some rule →
          ∀ place < rule.constraints.length, ∃ after,
            policy.removeConstraint id place = .ok after ∧ after.violations =
              relocate (.withoutConstraint partition index place) policy.violations) ∧
    (∀ (policy : GenericPolicy) (id : RuleId) (index : Nat), policy.place? id = some index →
      ∃ after, policy.removeRule id = .ok after ∧
        after.violations = relocate (.withoutRule none index) policy.violations) ∧
    (∀ policy : OdrlPolicy, policy.Reachable → ∀ partition index rule,
      (policy.rulesIn partition)[index]? = some rule →
        policy.place? rule.id = some (partition, index)) ∧
    (∀ policy : GenericPolicy, policy.Reachable → ∀ index rule,
      policy.rules[index]? = some rule → policy.place? rule.id = some index) := by
  refine ⟨?_, ?_, ?_, ?_⟩
  · intro policy id partition index hplace
    obtain ⟨rule, hrule, -⟩ := OdrlPolicy.getElem?_of_place? hplace
    refine ⟨⟨_, OdrlPolicy.removeRule_eq hplace, ?_, ?_⟩, ?_⟩
    · intro hcount
      exact OdrlPolicy.violations_eraseIdx hrule hcount
    · intro hcount
      exact OdrlPolicy.violations_of_last hrule hcount
    · intro rule hrule place hlt
      exact ⟨_, OdrlPolicy.removeConstraint_eq hplace hrule hlt,
        OdrlPolicy.violations_eraseConstraint hrule⟩
  · intro policy id index hplace
    exact GenericPolicy.violations_removeRule hplace
  · intro policy hpolicy partition index rule hrule
    exact OdrlPolicy.place?_of_getElem? hpolicy.ordered hrule
  · intro policy hpolicy index rule hrule
    exact GenericPolicy.place?_of_getElem? hpolicy.ordered hrule

theorem violations_of_removals_of_drafts :
    let single := ((OdrlPolicy.new .offer).addRule .permission).1
    let access := GenericPolicy.draftedAccess
    (∃ after, OdrlPolicy.draftedSet.removeRule ⟨1⟩ = .ok after ∧ after.violations =
      relocate (.withoutRule (some .permission) 0) OdrlPolicy.draftedSet.violations) ∧
    (∃ after, OdrlPolicy.draftedSet.removeConstraint ⟨2⟩ 0 = .ok after ∧ after.violations =
      relocate (.withoutConstraint .obligation 0 0) OdrlPolicy.draftedSet.violations) ∧
    (∃ after, single.removeRule ⟨1⟩ = .ok after ∧ after.violations =
      [⟨.missingUid, .policy, "uid"⟩, ⟨.missingAssigner, .policy, "assigner"⟩,
        ⟨.missingTarget, .policy, "target"⟩, ⟨.noRules, .policy, "rules"⟩]) ∧
    ∃ after, access.removeRule ⟨1⟩ = .ok after ∧
      after.violations = relocate (.withoutRule none 0) access.violations := by
  intro single access
  obtain ⟨hodrl, hgeneric, hplaceOdrl, hplaceGeneric⟩ := violations_of_removals
  have hpermission : OdrlPolicy.draftedSet.place? ⟨1⟩ = some (.permission, 0) :=
    hplaceOdrl _ OdrlPolicy.reachable_draftedSet .permission 0 _ rfl
  have hobligation : OdrlPolicy.draftedSet.place? ⟨2⟩ = some (.obligation, 0) :=
    hplaceOdrl _ OdrlPolicy.reachable_draftedSet .obligation 0 _ rfl
  have haccess : access.place? ⟨1⟩ = some 0 :=
    hplaceGeneric _ GenericPolicy.reachable_draftedAccess 0 _ rfl
  refine ⟨?_, ?_, ?_, hgeneric access ⟨1⟩ 0 haccess⟩
  · obtain ⟨⟨after, hremove, hmany, -⟩, -⟩ := hodrl _ _ _ _ hpermission
    exact ⟨after, hremove, hmany (by decide)⟩
  · obtain ⟨-, hconstraints⟩ := hodrl _ _ _ _ hobligation
    exact hconstraints _ rfl 0 (by decide)
  · obtain ⟨⟨after, hremove, -, hlast⟩, -⟩ := hodrl single ⟨1⟩ .permission 0 rfl
    exact ⟨after, hremove, hlast rfl⟩

example :
    relocate (.withoutRule (some .permission) 0)
        [⟨.missingTarget, .policy, "target"⟩,
          ⟨.missingAction, .rule (some .permission) 0, "action"⟩,
          ⟨.missingAction, .rule (some .permission) 2, "action"⟩,
          ⟨.missingAction, .rule (some .obligation) 0, "action"⟩,
          ⟨.missingOperator, .constraint .permission 0 0, "operator"⟩,
          ⟨.missingOperator, .constraint .permission 1 3, "operator"⟩] =
      [⟨.missingTarget, .policy, "target"⟩,
        ⟨.missingAction, .rule (some .permission) 1, "action"⟩,
        ⟨.missingAction, .rule (some .obligation) 0, "action"⟩,
        ⟨.missingOperator, .constraint .permission 0 3, "operator"⟩] := by
  decide

end RightsPolicy
