import RightsPolicy.Proofs.Policy.Reachable

namespace RightsPolicy

section First

variable {α β γ : Type}

theorem exists_split_of_find? {items : List α} {p : α → Bool} {a : α} (h : items.find? p = some a) :
    ∃ before behind, items = before ++ a :: behind ∧ (∀ other ∈ before, p other = false) ∧
      p a = true ∧ items.findIdx? p = some before.length := by
  obtain ⟨ha, before, behind, rfl, hbefore⟩ := List.find?_eq_some_iff_append.mp h
  have hnot : ∀ other ∈ before, p other = false := by simpa using hbefore
  have hnone : before.findIdx? p = none := List.findIdx?_eq_none_iff.mpr hnot
  refine ⟨before, behind, rfl, hnot, ha, ?_⟩
  simp [List.findIdx?_append, List.findIdx?_cons, hnone, ha]

theorem rel_findSome? {R : β → γ → Prop} {f : α → Option β} {g : α → Option γ}
    (h : ∀ a, Option.Rel R (f a) (g a)) (items : List α) :
    Option.Rel R (items.findSome? f) (items.findSome? g) := by
  induction items with
  | nil => exact .none
  | cons a items ih =>
    rw [List.findSome?_cons, List.findSome?_cons]
    have ha := h a
    cases hf : f a <;> cases hg : g a <;> rw [hf, hg] at ha
    · exact ih
    · cases ha
    · cases ha
    · exact ha

end First

inductive OdrlRuleEdit where
  | update (field : OdrlRuleField)
  | remove
  | addConstraint
  | updateConstraint (index : Nat) (field : ConstraintField)
  | removeConstraint (index : Nat)
  deriving DecidableEq

namespace OdrlRuleEdit

def on (id : RuleId) : OdrlRuleEdit → OdrlEdit
  | .update field => .updateRule id field
  | .remove => .removeRule id
  | .addConstraint => .addConstraint id
  | .updateConstraint index field => .updateConstraint id index field
  | .removeConstraint index => .removeConstraint id index

def constraint? : OdrlRuleEdit → Option Nat
  | .updateConstraint index _ => some index
  | .removeConstraint index => some index
  | _ => none

inductive Result (rule : OdrlRule) : OdrlRuleEdit → EditAnswer → Option OdrlRule → Prop where
  | update (field : OdrlRuleField) : Result rule (.update field) .changed (some (rule.set field))
  | remove : Result rule .remove .changed none
  | addConstraint : Result rule .addConstraint (.newConstraint rule.constraints.length)
      (some { rule with constraints := rule.constraints ++ [Constraint.empty] })
  | updateConstraint {before behind : List Constraint} {constraint : Constraint}
      (h : rule.constraints = before ++ constraint :: behind) (field : ConstraintField) :
      Result rule (.updateConstraint before.length field) .changed
        (some { rule with constraints := before ++ constraint.set field :: behind })
  | removeConstraint {before behind : List Constraint} {constraint : Constraint}
      (h : rule.constraints = before ++ constraint :: behind) :
      Result rule (.removeConstraint before.length) .changed
        (some { rule with constraints := before ++ behind })
  | missing {e : OdrlRuleEdit} {index : Nat} (he : e.constraint? = some index)
      (hindex : rule.constraints.length ≤ index) :
      Result rule e (.refused (.constraintNotFound rule.id index)) (some rule)

variable {e : OdrlRuleEdit} {rule : OdrlRule} {answer : EditAnswer} {edited : Option OdrlRule}

theorem exists_result (e : OdrlRuleEdit) (rule : OdrlRule) :
    ∃ answer edited, e.Result rule answer edited := by
  have hconstraint (index : Nat) : rule.constraints.length ≤ index ∨
      ∃ before constraint behind, rule.constraints = before ++ constraint :: behind ∧
        before.length = index := by
    rcases Nat.lt_or_ge index rule.constraints.length with hlt | hle
    · refine .inr ⟨rule.constraints.take index, rule.constraints[index],
        rule.constraints.drop (index + 1), ?_, List.length_take_of_le (Nat.le_of_lt hlt)⟩
      rw [List.getElem_cons_drop, List.take_append_drop]
    · exact .inl hle
  cases e with
  | update field => exact ⟨_, _, .update field⟩
  | remove => exact ⟨_, _, .remove⟩
  | addConstraint => exact ⟨_, _, .addConstraint⟩
  | updateConstraint index field =>
    rcases hconstraint index with hle | ⟨before, constraint, behind, h, rfl⟩
    · exact ⟨_, _, .missing rfl hle⟩
    · exact ⟨_, _, .updateConstraint h field⟩
  | removeConstraint index =>
    rcases hconstraint index with hle | ⟨before, constraint, behind, h, rfl⟩
    · exact ⟨_, _, .missing rfl hle⟩
    · exact ⟨_, _, .removeConstraint h⟩

namespace Result

theorem id_eq (h : e.Result rule answer edited) : ∀ other ∈ edited, other.id = rule.id := by
  cases h with
  | update field => cases field <;> simp [OdrlRule.set]
  | _ => simp

theorem refused_iff (h : e.Result rule answer edited) {cause : PolicyError} :
    answer = .refused cause ↔ ∃ index, e.constraint? = some index ∧
      rule.constraints.length ≤ index ∧ cause = .constraintNotFound rule.id index := by
  cases h with
  | update => simp [constraint?]
  | remove => simp [constraint?]
  | addConstraint => simp [constraint?]
  | @updateConstraint before _ _ h =>
    have hindex : ¬ rule.constraints.length ≤ before.length := by simp [h]
    simp [constraint?, hindex]
  | @removeConstraint before _ _ h =>
    have hindex : ¬ rule.constraints.length ≤ before.length := by simp [h]
    simp [constraint?, hindex]
  | missing he hindex => simp [he, hindex, eq_comm]

end Result

end OdrlRuleEdit

namespace OdrlPolicy

variable {policy : OdrlPolicy} {id : RuleId} {partition : Partition} {rule : OdrlRule}
  {before behind : List OdrlRule}

structure Located (policy : OdrlPolicy) (id : RuleId) (partition : Partition)
    (before : List OdrlRule) (rule : OdrlRule) (behind : List OdrlRule) : Prop where
  rules : policy.rulesIn partition = before ++ rule :: behind
  first : ∀ other ∈ before, other.id ≠ id
  id_eq : rule.id = id
  rule? : policy.rule? id = some (partition, rule)
  place? : policy.place? id = some (partition, before.length)

theorem rule?_eq (policy : OdrlPolicy) (id : RuleId) :
    policy.rule? id = (Vocabulary.values (α := Partition)).findSome? fun partition =>
      ((policy.rulesIn partition).find? fun rule => rule.id = id).map fun rule =>
        (partition, rule) := by
  simp only [rule?, rules, List.find?_flatMap, List.find?_map]
  rfl

theorem rel_rule?_place? (policy : OdrlPolicy) (id : RuleId) :
    Option.Rel (fun entry place => place.1 = entry.1 ∧ ∃ before behind,
        policy.rulesIn entry.1 = before ++ entry.2 :: behind ∧
        (∀ other ∈ before, other.id ≠ id) ∧ entry.2.id = id ∧ place.2 = before.length)
      (policy.rule? id) (policy.place? id) := by
  rw [rule?_eq]
  refine rel_findSome? ?_ _
  intro partition
  cases hfind : (policy.rulesIn partition).find? fun rule => rule.id = id with
  | none =>
    have hnone : (policy.rulesIn partition).findIdx? (fun rule => rule.id = id) = none :=
      List.findIdx?_eq_none_iff.mpr (by simpa using hfind)
    rw [hnone]
    exact .none
  | some rule =>
    obtain ⟨before, behind, hrules, hfirst, hid, hindex⟩ := exists_split_of_find? hfind
    rw [hindex]
    refine .some ⟨rfl, before, behind, hrules, ?_, of_decide_eq_true hid, rfl⟩
    intro other hother
    exact of_decide_eq_false (hfirst other hother)

theorem located_of_rule? (h : policy.rule? id = some (partition, rule)) :
    ∃ before behind, policy.Located id partition before rule behind := by
  have hrel := rel_rule?_place? policy id
  rw [h] at hrel
  cases hplace : policy.place? id with
  | none =>
    rw [hplace] at hrel
    cases hrel
  | some place =>
    rw [hplace] at hrel
    obtain ⟨other, index⟩ := place
    cases hrel with
    | some hrel =>
      obtain ⟨rfl, before, behind, hrules, hfirst, hid, rfl⟩ := hrel
      exact ⟨before, behind, hrules, hfirst, hid, h, hplace⟩

theorem rule?_eq_none_iff :
    policy.rule? id = none ↔ ∀ partition, id ∉ policy.ruleIds.lists partition := by
  simp [rule?, rules, ruleIds, Vocabulary.complete]

section Located

variable (h : policy.Located id partition before rule behind)

include h

theorem editRule_located (change : OdrlRule → Except PolicyError OdrlRule) :
    policy.editRule id change =
      (change rule).map fun edited => policy.setRulesIn partition (before ++ edited :: behind) := by
  simp [editRule, h.place?, h.rules]

theorem removeRule_located :
    policy.removeRule id = .ok (policy.setRulesIn partition (before ++ behind)) := by
  simp [removeRule, h.place?, h.rules, List.eraseIdx_append_of_length_le]

theorem setRulesIn_located :
    policy.setRulesIn partition (before ++ rule :: behind) = policy := by
  rw [← h.rules]
  cases partition <;> rfl

theorem edit_located {e : OdrlRuleEdit} {answer : EditAnswer} {edited : Option OdrlRule}
    (hresult : e.Result rule answer edited) :
    policy.edit (e.on id) =
      (answer, policy.setRulesIn partition (before ++ edited.toList ++ behind)) := by
  cases hresult with
  | update field =>
    simp [OdrlRuleEdit.on, edit, updateRule, editRule_located h, Except.map, EditAnswer.settle]
  | remove =>
    simp [OdrlRuleEdit.on, edit, removeRule_located h, Except.map, EditAnswer.settle]
  | addConstraint =>
    simp [OdrlRuleEdit.on, edit, addConstraint, h.rule?, editRule_located h, Except.map,
      EditAnswer.settle]
  | updateConstraint hconstraints field =>
    simp [OdrlRuleEdit.on, edit, updateConstraint, editRule_located h, hconstraints, Except.map,
      EditAnswer.settle]
  | removeConstraint hconstraints =>
    simp [OdrlRuleEdit.on, edit, removeConstraint, editRule_located h, hconstraints, Except.map,
      EditAnswer.settle, List.eraseIdx_append_of_length_le]
  | @missing _ index he hindex =>
    have hnone : rule.constraints[index]? = none := List.getElem?_eq_none hindex
    have hle : ¬ index < rule.constraints.length := Nat.not_lt.mpr hindex
    -- the rule stays in its place, so the policy is the old one
    have hself : policy.setRulesIn partition (before ++ (some rule).toList ++ behind) = policy := by
      simpa using setRulesIn_located h
    rw [hself, h.id_eq]
    cases e with
    | updateConstraint _ field =>
      cases he
      simp [OdrlRuleEdit.on, edit, updateConstraint, editRule_located h, hnone, Except.map,
        EditAnswer.settle]
    | removeConstraint _ =>
      cases he
      simp [OdrlRuleEdit.on, edit, removeConstraint, editRule_located h, hle, Except.map,
        EditAnswer.settle]
    | _ => cases he

end Located

end OdrlPolicy

namespace OdrlPolicy

theorem edit_of_rule?_eq_none {policy : OdrlPolicy} {id : RuleId} (h : policy.rule? id = none)
    (e : OdrlRuleEdit) : policy.edit (e.on id) = (.refused (.ruleNotFound id), policy) := by
  have hplace := place?_eq_none_iff.mpr (rule?_eq_none_iff.mp h)
  cases e <;>
    simp [OdrlRuleEdit.on, edit, updateRule, removeRule, addConstraint, updateConstraint,
      removeConstraint, editRule, h, hplace, Except.map, EditAnswer.settle]

end OdrlPolicy

inductive GenericRuleEdit where
  | update (field : GenericRuleField)
  | remove
  deriving DecidableEq

namespace GenericRuleEdit

def on (id : RuleId) : GenericRuleEdit → GenericEdit
  | .update field => .updateRule id field
  | .remove => .removeRule id

def result (rule : GenericRule) : GenericRuleEdit → Option GenericRule
  | .update field => some (rule.set field)
  | .remove => none

end GenericRuleEdit

namespace GenericPolicy

variable {policy : GenericPolicy} {id : RuleId} {rule : GenericRule}
  {before behind : List GenericRule}

structure Located (policy : GenericPolicy) (id : RuleId) (before : List GenericRule)
    (rule : GenericRule) (behind : List GenericRule) : Prop where
  rules : policy.rules = before ++ rule :: behind
  first : ∀ other ∈ before, other.id ≠ id
  id_eq : rule.id = id
  rule? : policy.rule? id = some rule
  place? : policy.place? id = some before.length

theorem located_of_rule? (h : policy.rule? id = some rule) :
    ∃ before behind, policy.Located id before rule behind := by
  obtain ⟨before, behind, hrules, hfirst, hid, hplace⟩ := exists_split_of_find? h
  refine ⟨before, behind, hrules, ?_, of_decide_eq_true hid, h, hplace⟩
  intro other hother
  exact of_decide_eq_false (hfirst other hother)

theorem edit_of_rule?_eq_none (h : policy.rule? id = none) (e : GenericRuleEdit) :
    policy.edit (e.on id) = (.refused (.ruleNotFound id), policy) := by
  have hplace : policy.place? id = none := List.findIdx?_eq_none_iff.mpr (by simpa [rule?] using h)
  cases e <;>
    simp [GenericRuleEdit.on, edit, updateRule, removeRule, hplace, Except.map, EditAnswer.settle]

theorem edit_located (h : policy.Located id before rule behind) (e : GenericRuleEdit) :
    policy.edit (e.on id) =
      (.changed, { policy with rules := before ++ (e.result rule).toList ++ behind }) := by
  cases e with
  | update field =>
    simp [GenericRuleEdit.on, GenericRuleEdit.result, edit, updateRule, h.place?, h.rules,
      Except.map, EditAnswer.settle, List.modify_eq_take_drop]
  | remove =>
    simp [GenericRuleEdit.on, GenericRuleEdit.result, edit, removeRule, h.place?, h.rules,
      Except.map, EditAnswer.settle, List.eraseIdx_append_of_length_le]

end GenericPolicy

end RightsPolicy
