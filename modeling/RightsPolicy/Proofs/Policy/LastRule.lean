import RightsPolicy.Proofs.Policy.Editing

namespace RightsPolicy

namespace RuleIds

variable {ι : Type}

structure HasRoom (ids : RuleIds ι) (n : Nat) : Prop where
  ordered : ids.Ordered
  fits : ids.next.value.toNat + n ≤ RuleId.last

variable {ids : RuleIds ι} {n : Nat}

theorem HasRoom.fresh (h : ids.HasRoom n) (i : ι) : ids.next ∉ ids.lists i := by
  intro hmem
  exact UInt64.lt_irrefl _ (h.ordered.bounded i _ hmem).2

theorem HasRoom.add [DecidableEq ι] (h : ids.HasRoom (n + 1)) (i : ι) : (ids.add i).HasRoom n := by
  have hfits := h.fits
  have hsteady : ids.next.value.toNat < RuleId.last := by omega
  have hnext : (ids.add i).next.value.toNat = ids.next.value.toNat + 1 := RuleId.toNat_next hsteady
  exact ⟨ordered_add h.ordered hsteady i, by omega⟩

end RuleIds

namespace OdrlPolicy

variable {policy : OdrlPolicy} {n : Nat}

section Last

variable (hroom : policy.ruleIds.HasRoom n) (partition : Partition) (rule : OdrlRule)

include hroom

theorem place?_push : (policy.push partition rule).place? policy.nextRuleId =
    some (partition, (policy.rulesIn partition).length) := by
  have hnone (other : Partition) :
      (policy.rulesIn other).findIdx? (fun rule => rule.id = policy.nextRuleId) = none := by
    have hfresh := hroom.fresh other
    simpa [ruleIds] using hfresh
  have hpermission := hnone .permission
  have hprohibition := hnone .prohibition
  have hobligation := hnone .obligation
  simp only [rulesIn] at hpermission hprohibition hobligation
  cases partition <;>
    simp [place?, push, setRulesIn, rulesIn, Vocabulary.values, List.findIdx?_append, hpermission,
      hprohibition, hobligation]

theorem rule?_push : (policy.push partition rule).rule? policy.nextRuleId =
    some (partition, rule.withId policy.nextRuleId) := by
  have hnone (other : Partition) : ((policy.rulesIn other).map fun rule => (other, rule)).find?
      (fun entry => entry.2.id = policy.nextRuleId) = none := by
    have hfresh := hroom.fresh other
    simpa [ruleIds] using hfresh
  have hpermission := hnone .permission
  have hprohibition := hnone .prohibition
  have hobligation := hnone .obligation
  simp only [rulesIn] at hpermission hprohibition hobligation
  cases partition <;>
    simp [rule?, rules, push, setRulesIn, rulesIn, Vocabulary.values, hpermission, hprohibition,
      hobligation, OdrlRule.withId]

theorem editRule_push {change : OdrlRule → Except PolicyError OdrlRule} {edited : OdrlRule}
    (hchange : change (rule.withId policy.nextRuleId) = .ok (edited.withId policy.nextRuleId)) :
    (policy.push partition rule).editRule policy.nextRuleId change =
      .ok (policy.push partition edited) := by
  have hrules (rule : OdrlRule) : (policy.push partition rule).rulesIn partition =
      policy.rulesIn partition ++ [rule.withId policy.nextRuleId] := by
    cases partition <;> rfl
  have hset (rules : List OdrlRule) :
      (policy.push partition rule).setRulesIn partition rules =
        { policy.setRulesIn partition rules with nextRuleId := policy.nextRuleId.next } := by
    cases partition <;> rfl
  simp only [editRule, place?_push hroom, hrules, List.getElem?_concat_length, hchange, hset]
  simp [Except.map, push, OdrlRule.withId]

theorem updateRule_push (field : OdrlRuleField) :
    (policy.push partition rule).updateRule policy.nextRuleId field =
      .ok (policy.push partition (rule.set field)) := by
  refine editRule_push hroom partition rule ?_
  cases field <;> rfl

theorem addConstraint_push :
    (policy.push partition rule).addConstraint policy.nextRuleId =
      .ok (policy.push partition
        { rule with constraints := rule.constraints ++ [Constraint.empty] },
          rule.constraints.length) := by
  have hedit : (policy.push partition rule).editRule policy.nextRuleId
      (fun rule => .ok { rule with constraints := rule.constraints ++ [Constraint.empty] }) =
        .ok (policy.push partition
          { rule with constraints := rule.constraints ++ [Constraint.empty] }) :=
    editRule_push hroom partition rule rfl
  simp only [addConstraint, rule?_push hroom, hedit]
  rfl

theorem updateConstraint_push (constraints : List Constraint) (constraint : Constraint)
    (field : ConstraintField) :
    (policy.push partition { rule with constraints := constraints ++ [constraint] }).updateConstraint
        policy.nextRuleId constraints.length field =
      .ok (policy.push partition
        { rule with constraints := constraints ++ [constraint.set field] }) := by
  refine editRule_push hroom partition _ ?_
  simp [OdrlRule.withId]

end Last

theorem hasRoom_push (partition : Partition) (rule : OdrlRule)
    (hroom : policy.ruleIds.HasRoom (n + 1)) : (policy.push partition rule).ruleIds.HasRoom n := by
  rw [ruleIds_push]
  exact hroom.add partition

theorem hasRoom_new (kind : OdrlKind) {n : Nat} (hfits : n < RuleId.last) :
    (new kind).ruleIds.HasRoom n where
  ordered := (Starts.new kind).ordered
  fits := by
    have hone : (new kind).ruleIds.next.value.toNat = 1 := rfl
    omega

end OdrlPolicy

namespace GenericPolicy

variable {policy : GenericPolicy} {n : Nat}

section Last

variable (hroom : policy.ruleIds.HasRoom n) (rule : GenericRule)

include hroom

theorem place?_push :
    (policy.push rule).place? policy.nextRuleId = some policy.rules.length := by
  have hnone : policy.rules.findIdx? (fun rule => rule.id = policy.nextRuleId) = none := by
    have hfresh := hroom.fresh ()
    simpa [ruleIds] using hfresh
  simp [place?, push, List.findIdx?_append, hnone]

theorem updateRule_push (field : GenericRuleField) :
    (policy.push rule).updateRule policy.nextRuleId field = .ok (policy.push (rule.set field)) := by
  have hset : (rule.withId policy.nextRuleId).set field =
      (rule.set field).withId policy.nextRuleId := by
    cases field <;> rfl
  simp only [updateRule, place?_push hroom]
  simp only [push, List.modify_eq_take_drop]
  simp only [GenericRule.withId] at hset
  simp [hset]

end Last

theorem hasRoom_push (rule : GenericRule) (hroom : policy.ruleIds.HasRoom (n + 1)) :
    (policy.push rule).ruleIds.HasRoom n := by
  rw [ruleIds_push]
  exact hroom.add ()

theorem hasRoom_new (kind : GenericKind) {n : Nat} (hfits : n < RuleId.last) :
    (new kind).ruleIds.HasRoom n where
  ordered := (Starts.new kind).ordered
  fits := by
    have hone : (new kind).ruleIds.next.value.toNat = 1 := rfl
    omega

end GenericPolicy

end RightsPolicy
