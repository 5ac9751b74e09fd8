import Mathlib.Data.List.InsertIdx
import Mathlib.Data.List.Nodup
import RightsPolicy.Document.Import
import RightsPolicy.Proofs.Document.ReadBack
import RightsPolicy.Proofs.Policy.RuleIds

namespace RightsPolicy

def EditAnswer.settle {σ : Type} (policy : σ) (outcome : Except PolicyError (EditAnswer × σ)) :
    EditAnswer × σ :=
  match outcome with
  | .ok result => result
  | .error cause => (.refused cause, policy)

theorem RuleIds.step_settle {σ ι α : Type} [DecidableEq ι] {ids : σ → RuleIds ι} {policy : σ}
    {outcome : Except PolicyError α} {result : α → EditAnswer × σ}
    (h : ∀ a, outcome = .ok a → (ids policy).Step (result a).1 (ids (result a).2)) :
    (ids policy).Step (EditAnswer.settle policy (outcome.map result)).1
      (ids (EditAnswer.settle policy (outcome.map result)).2) := by
  cases outcome with
  | error cause => exact .kept nofun
  | ok a => exact h a rfl

inductive OdrlEdit where
  | set (field : OdrlField)
  | addRule (partition : Partition)
  | withRule (partition : Partition) (action : Action)
  | updateRule (id : RuleId) (field : OdrlRuleField)
  | removeRule (id : RuleId)
  | addConstraint (id : RuleId)
  | updateConstraint (id : RuleId) (index : Nat) (field : ConstraintField)
  | removeConstraint (id : RuleId) (index : Nat)
  deriving DecidableEq

def OdrlEdit.addressee? : OdrlEdit → Option RuleId
  | .updateRule id _ => some id
  | .removeRule id => some id
  | .addConstraint id => some id
  | .updateConstraint id _ _ => some id
  | .removeConstraint id _ => some id
  | _ => none

namespace OdrlPolicy

def edit (policy : OdrlPolicy) : OdrlEdit → EditAnswer × OdrlPolicy
  | .set field => (.changed, policy.set field)
  | .addRule partition =>
    let (after, id) := policy.addRule partition
    (.newRule id, after)
  | .withRule partition action =>
    let (after, id) := policy.withRule partition action
    (.newRule id, after)
  | .updateRule id field =>
    EditAnswer.settle policy ((policy.updateRule id field).map fun after => (.changed, after))
  | .removeRule id =>
    EditAnswer.settle policy ((policy.removeRule id).map fun after => (.changed, after))
  | .addConstraint id =>
    EditAnswer.settle policy
      ((policy.addConstraint id).map fun (after, index) => (.newConstraint index, after))
  | .updateConstraint id index field =>
    EditAnswer.settle policy
      ((policy.updateConstraint id index field).map fun after => (.changed, after))
  | .removeConstraint id index =>
    EditAnswer.settle policy
      ((policy.removeConstraint id index).map fun after => (.changed, after))

def ruleIds (policy : OdrlPolicy) : RuleIds Partition where
  lists partition := (policy.rulesIn partition).map (·.id)
  next := policy.nextRuleId

variable {policy after : OdrlPolicy} {id : RuleId} {partition : Partition} {index : Nat}

theorem ruleIds_setRulesIn (policy : OdrlPolicy) (partition : Partition) (rules : List OdrlRule) :
    (policy.setRulesIn partition rules).ruleIds =
      ⟨Function.update policy.ruleIds.lists partition (rules.map (·.id)), policy.nextRuleId⟩ := by
  simp only [ruleIds, RuleIds.mk.injEq]
  refine ⟨?_, by cases partition <;> rfl⟩
  funext other
  rw [Function.update_apply]
  cases partition <;> cases other <;> rfl

theorem getElem?_ruleIds {rule : OdrlRule}
    (hrule : (policy.rulesIn partition)[index]? = some rule) :
    (policy.ruleIds.lists partition)[index]? = some rule.id := by
  rw [ruleIds, List.getElem?_map, hrule, Option.map_some]

theorem getElem?_of_place? (h : policy.place? id = some (partition, index)) :
    ∃ rule, (policy.rulesIn partition)[index]? = some rule ∧ rule.id = id := by
  obtain ⟨found, -, hfound⟩ := List.exists_of_findSome?_eq_some h
  obtain ⟨place, hplace, heq⟩ := Option.map_eq_some_iff.mp hfound
  cases heq
  obtain ⟨hlt, hid, -⟩ := List.findIdx?_eq_some_iff_getElem.mp hplace
  exact ⟨_, List.getElem?_eq_getElem hlt, of_decide_eq_true hid⟩

theorem place?_eq_none_iff :
    policy.place? id = none ↔ ∀ partition, id ∉ policy.ruleIds.lists partition := by
  simp [place?, ruleIds, List.findSome?_eq_none_iff, Vocabulary.complete]

section EditRule

variable {change : OdrlRule → Except PolicyError OdrlRule}

theorem editRule_eq_ok (h : policy.editRule id change = .ok after) :
    ∃ partition index rule edited, (policy.rulesIn partition)[index]? = some rule ∧
      rule.id = id ∧ change rule = .ok edited ∧
      after = policy.setRulesIn partition ((policy.rulesIn partition).set index edited) := by
  unfold editRule at h
  split at h
  · cases h
  · rename_i partition index hplace
    obtain ⟨rule, hrule, hid⟩ := getElem?_of_place? hplace
    simp only [hrule] at h
    obtain ⟨edited, hedited, rfl⟩ := map_eq_ok_iff.mp h
    exact ⟨partition, index, rule, edited, hrule, hid, hedited, rfl⟩

theorem editRule_of_absent (h : ∀ partition, id ∉ policy.ruleIds.lists partition) :
    policy.editRule id change = .error (.ruleNotFound id) := by
  rw [editRule, place?_eq_none_iff.mpr h]

theorem ruleIds_editRule (hchange : ∀ rule edited, change rule = .ok edited → edited.id = rule.id)
    (h : policy.editRule id change = .ok after) : after.ruleIds = policy.ruleIds := by
  obtain ⟨partition, index, rule, edited, hrule, -, hedited, rfl⟩ := editRule_eq_ok h
  obtain ⟨hlt, rfl⟩ := List.getElem?_eq_some_iff.mp hrule
  have hids : ((policy.rulesIn partition).set index edited).map (·.id) =
      (policy.rulesIn partition).map (·.id) := by
    have hlength : index < ((policy.rulesIn partition).map (·.id)).length := by
      rwa [List.length_map]
    have hself := List.set_getElem_self hlength
    rwa [List.getElem_map, ← hchange _ _ hedited, ← List.map_set] at hself
  rw [ruleIds_setRulesIn, hids]
  exact congrArg (RuleIds.mk · _) (Function.update_eq_self partition policy.ruleIds.lists)

end EditRule

theorem ruleIds_updateRule {field : OdrlRuleField} (h : policy.updateRule id field = .ok after) :
    after.ruleIds = policy.ruleIds := by
  refine ruleIds_editRule ?_ h
  rintro rule edited ⟨⟩
  cases field <;> rfl

theorem ruleIds_addConstraint (h : policy.addConstraint id = .ok (after, index)) :
    after.ruleIds = policy.ruleIds := by
  unfold addConstraint at h
  split at h
  · cases h
  · obtain ⟨edited, hedit, heq⟩ := map_eq_ok_iff.mp h
    cases heq
    refine ruleIds_editRule ?_ hedit
    rintro rule edited ⟨⟩
    rfl

theorem ruleIds_updateConstraint {field : ConstraintField}
    (h : policy.updateConstraint id index field = .ok after) : after.ruleIds = policy.ruleIds := by
  refine ruleIds_editRule ?_ h
  intro rule edited hedited
  split at hedited
  · cases hedited
  · cases hedited
    rfl

theorem ruleIds_removeConstraint (h : policy.removeConstraint id index = .ok after) :
    after.ruleIds = policy.ruleIds := by
  refine ruleIds_editRule ?_ h
  intro rule edited hedited
  split at hedited
  · cases hedited
    rfl
  · cases hedited

theorem ruleIds_push (policy : OdrlPolicy) (partition : Partition) (rule : OdrlRule) :
    (policy.push partition rule).ruleIds = policy.ruleIds.add partition := by
  refine congrArg (RuleIds.mk · policy.nextRuleId.next) ?_
  funext other
  rw [Function.update_apply]
  cases partition <;> cases other <;> simp [ruleIds, push, setRulesIn, rulesIn]

theorem ruleIds_removeRule (h : policy.removeRule id = .ok after) :
    ∃ partition index, (policy.ruleIds.lists partition)[index]? = some id ∧
      after.ruleIds = policy.ruleIds.eraseAt partition index := by
  unfold removeRule at h
  split at h
  · cases h
  · rename_i partition index hplace
    cases h
    obtain ⟨rule, hrule, hid⟩ := getElem?_of_place? hplace
    refine ⟨partition, index, ?_, ?_⟩
    · rw [← hid, getElem?_ruleIds hrule]
    · rw [ruleIds_setRulesIn, ← List.eraseIdx_map]
      rfl

theorem step_edit (policy : OdrlPolicy) (e : OdrlEdit) :
    policy.ruleIds.Step (policy.edit e).1 (policy.edit e).2.ruleIds := by
  have hkept {answer : EditAnswer} {after : OdrlPolicy} (hanswer : ∀ id, answer ≠ .newRule id)
      (h : after.ruleIds = policy.ruleIds) : policy.ruleIds.Step answer after.ruleIds :=
    h ▸ .kept hanswer
  cases e with
  | set field =>
    refine hkept nofun ?_
    cases field <;> rfl
  | addRule partition =>
    have hstep := @RuleIds.Step.added _ _ policy.ruleIds partition
    rwa [← ruleIds_push policy partition (OdrlRule.empty ⟨0⟩)] at hstep
  | withRule partition action =>
    have hstep := @RuleIds.Step.added _ _ policy.ruleIds partition
    rwa [← ruleIds_push policy partition
      { OdrlRule.empty ⟨0⟩ with action := some action }] at hstep
  | updateRule id field =>
    apply RuleIds.step_settle
    intro after h
    exact hkept nofun (ruleIds_updateRule h)
  | removeRule id =>
    apply RuleIds.step_settle
    intro after h
    obtain ⟨partition, index, -, hids⟩ := ruleIds_removeRule h
    rw [hids]
    exact .removed partition index
  | addConstraint id =>
    apply RuleIds.step_settle
    intro result h
    exact hkept nofun (ruleIds_addConstraint h)
  | updateConstraint id index field =>
    apply RuleIds.step_settle
    intro after h
    exact hkept nofun (ruleIds_updateConstraint h)
  | removeConstraint id index =>
    apply RuleIds.step_settle
    intro after h
    exact hkept nofun (ruleIds_removeConstraint h)

theorem edit_of_absent {e : OdrlEdit} (haddressee : e.addressee? = some id)
    (h : ∀ partition, id ∉ policy.ruleIds.lists partition) :
    (policy.edit e).1 = .refused (.ruleNotFound id) := by
  have hplace := place?_eq_none_iff.mpr h
  have hedit (change : OdrlRule → Except PolicyError OdrlRule) :
      policy.editRule id change = .error (.ruleNotFound id) := editRule_of_absent h
  have hrule : policy.rule? id = none := by
    simpa [rule?, rules, ruleIds, Vocabulary.complete] using h
  cases e with
  | set => cases haddressee
  | addRule => cases haddressee
  | withRule => cases haddressee
  | updateRule =>
    cases haddressee
    simp only [edit, updateRule, hedit]
    rfl
  | removeRule =>
    cases haddressee
    simp only [edit, removeRule, hplace]
    rfl
  | addConstraint =>
    cases haddressee
    simp only [edit, addConstraint, hrule]
    rfl
  | updateConstraint =>
    cases haddressee
    simp only [edit, updateConstraint, hedit]
    rfl
  | removeConstraint =>
    cases haddressee
    simp only [edit, removeConstraint, hedit]
    rfl

theorem ruleIds_of_removal (h : (policy.edit (.removeRule id)).1 = .changed) :
    ∃ partition index, (policy.ruleIds.lists partition)[index]? = some id ∧
      (policy.edit (.removeRule id)).2.ruleIds = policy.ruleIds.eraseAt partition index := by
  simp only [edit] at h ⊢
  cases hremove : policy.removeRule id with
  | error cause =>
    rw [hremove] at h
    cases h
  | ok after => exact ruleIds_removeRule hremove

def editor : Editor OdrlPolicy OdrlEdit Partition where
  edit := edit
  ids := ruleIds
  addressee? := OdrlEdit.addressee?
  removal := .removeRule
  step := step_edit
  refuses _ _ _ haddressee := edit_of_absent haddressee
  removes _ _ := ruleIds_of_removal

end OdrlPolicy

inductive GenericEdit where
  | set (field : GenericField)
  | addTargetResource (resource : String)
  | addTargetUser (user : String)
  | addRule
  | updateRule (id : RuleId) (field : GenericRuleField)
  | removeRule (id : RuleId)
  deriving DecidableEq

def GenericEdit.addressee? : GenericEdit → Option RuleId
  | .updateRule id _ => some id
  | .removeRule id => some id
  | _ => none

namespace GenericPolicy

def edit (policy : GenericPolicy) : GenericEdit → EditAnswer × GenericPolicy
  | .set field => (.changed, policy.set field)
  | .addTargetResource resource => (.changed, policy.addTargetResource resource)
  | .addTargetUser user => (.changed, policy.addTargetUser user)
  | .addRule =>
    let (after, id) := policy.addRule
    (.newRule id, after)
  | .updateRule id field =>
    EditAnswer.settle policy ((policy.updateRule id field).map fun after => (.changed, after))
  | .removeRule id =>
    EditAnswer.settle policy ((policy.removeRule id).map fun after => (.changed, after))

def ruleIds (policy : GenericPolicy) : RuleIds Unit where
  lists _ := policy.rules.map (·.id)
  next := policy.nextRuleId

variable {policy after : GenericPolicy} {id : RuleId} {index : Nat}

theorem getElem?_ruleIds {rule : GenericRule} (hrule : policy.rules[index]? = some rule) :
    (policy.ruleIds.lists ())[index]? = some rule.id := by
  rw [ruleIds, List.getElem?_map, hrule, Option.map_some]

theorem getElem?_of_place? (h : policy.place? id = some index) :
    ∃ rule, policy.rules[index]? = some rule ∧ rule.id = id := by
  obtain ⟨hlt, hid, -⟩ := List.findIdx?_eq_some_iff_getElem.mp h
  exact ⟨_, List.getElem?_eq_getElem hlt, of_decide_eq_true hid⟩

theorem place?_eq_none_iff : policy.place? id = none ↔ ∀ i, id ∉ policy.ruleIds.lists i := by
  simp [place?, ruleIds]

theorem ruleIds_updateRule {field : GenericRuleField} (h : policy.updateRule id field = .ok after) :
    after.ruleIds = policy.ruleIds := by
  unfold updateRule at h
  split at h
  · cases h
  · rename_i index _
    cases h
    have hids : (policy.rules.modify index fun rule => rule.set field).map (·.id) =
        policy.rules.map (·.id) := by
      have hset (rule : GenericRule) : (rule.set field).id = rule.id := by cases field <;> rfl
      refine List.ext_getElem? ?_
      intro i
      rw [List.getElem?_map, List.getElem?_modify, List.getElem?_map]
      cases policy.rules[i]? with
      | none => rfl
      | some rule =>
        simp only [Option.map_eq_map, Option.map_some, Option.some.injEq]
        split
        · exact hset rule
        · rfl
    simp only [ruleIds, hids]

theorem ruleIds_push (policy : GenericPolicy) (rule : GenericRule) :
    (policy.push rule).ruleIds = policy.ruleIds.add () := by
  refine congrArg (RuleIds.mk · policy.nextRuleId.next) ?_
  funext i
  simp [ruleIds, push]

theorem ruleIds_removeRule (h : policy.removeRule id = .ok after) :
    ∃ i index, (policy.ruleIds.lists i)[index]? = some id ∧
      after.ruleIds = policy.ruleIds.eraseAt i index := by
  unfold removeRule at h
  split at h
  · cases h
  · rename_i index hplace
    cases h
    obtain ⟨rule, hrule, hid⟩ := getElem?_of_place? hplace
    refine ⟨(), index, ?_, ?_⟩
    · rw [← hid, getElem?_ruleIds hrule]
    · refine congrArg (RuleIds.mk · policy.nextRuleId) ?_
      funext i
      rw [Function.update_apply, if_pos rfl, ← List.eraseIdx_map]
      rfl

theorem step_edit (policy : GenericPolicy) (e : GenericEdit) :
    policy.ruleIds.Step (policy.edit e).1 (policy.edit e).2.ruleIds := by
  cases e with
  | set field =>
    have hids : (policy.set field).ruleIds = policy.ruleIds := by cases field <;> rfl
    exact hids ▸ .kept nofun
  | addTargetResource resource => exact .kept nofun
  | addTargetUser user => exact .kept nofun
  | addRule =>
    have hstep := @RuleIds.Step.added _ _ policy.ruleIds ()
    rwa [← ruleIds_push policy (GenericRule.empty ⟨0⟩)] at hstep
  | updateRule id field =>
    apply RuleIds.step_settle
    intro after h
    rw [ruleIds_updateRule h]
    exact .kept nofun
  | removeRule id =>
    apply RuleIds.step_settle
    intro after h
    obtain ⟨i, index, -, hids⟩ := ruleIds_removeRule h
    rw [hids]
    exact .removed i index

theorem edit_of_absent {e : GenericEdit} (haddressee : e.addressee? = some id)
    (h : ∀ i, id ∉ policy.ruleIds.lists i) :
    (policy.edit e).1 = .refused (.ruleNotFound id) := by
  have hplace := place?_eq_none_iff.mpr h
  cases e with
  | updateRule =>
    cases haddressee
    simp only [edit, updateRule, hplace]
    rfl
  | removeRule =>
    cases haddressee
    simp only [edit, removeRule, hplace]
    rfl
  | _ => cases haddressee

theorem ruleIds_of_removal (h : (policy.edit (.removeRule id)).1 = .changed) :
    ∃ i index, (policy.ruleIds.lists i)[index]? = some id ∧
      (policy.edit (.removeRule id)).2.ruleIds = policy.ruleIds.eraseAt i index := by
  simp only [edit] at h ⊢
  cases hremove : policy.removeRule id with
  | error cause =>
    rw [hremove] at h
    cases h
  | ok after => exact ruleIds_removeRule hremove

def editor : Editor GenericPolicy GenericEdit Unit where
  edit := edit
  ids := ruleIds
  addressee? := GenericEdit.addressee?
  removal := .removeRule
  step := step_edit
  refuses _ _ _ haddressee := edit_of_absent haddressee
  removes _ _ := ruleIds_of_removal

end GenericPolicy

namespace RuleIds

variable {ι : Type}

theorem ordered_of_ranges {ids : RuleIds ι} {first count : ι → Nat} {next : Nat}
    (hlists : ∀ i, ids.lists i = (List.range' (first i) (count i)).map RuleId.ofNat)
    (hnext : ids.next = RuleId.ofNat next) (hsize : next < UInt64.size)
    (hfirst : ∀ i, 1 ≤ first i) (hend : ∀ i, first i + count i ≤ next)
    (hapart : ∀ i j, i = j ∨ first i + count i ≤ first j ∨ first j + count j ≤ first i)
    (hpositive : 1 ≤ next) : ids.Ordered := by
  have hvalue {n : Nat} (h : n ≤ next) : (RuleId.ofNat n).value.toNat = n :=
    UInt64.toNat_ofNat_of_lt' (Nat.lt_of_le_of_lt h hsize)
  have hmem {i : ι} {id : RuleId} (h : id ∈ ids.lists i) :
      ∃ n, first i ≤ n ∧ n < first i + count i ∧ RuleId.ofNat n = id := by
    rw [hlists, List.mem_map] at h
    obtain ⟨n, hn, rfl⟩ := h
    obtain ⟨hlow, hhigh⟩ := List.mem_range'_1.mp hn
    exact ⟨n, hlow, hhigh, rfl⟩
  have hone : (1 : UInt64).toNat = 1 := rfl
  refine ⟨?_, ?_, ?_, ?_⟩
  · rw [hnext, UInt64.le_iff_toNat_le, hvalue (Nat.le_refl _), hone]
    exact hpositive
  · intro i id hid
    obtain ⟨n, hlow, hhigh, rfl⟩ := hmem hid
    have hbelow := hend i
    have hleast := hfirst i
    rw [hnext, UInt64.le_iff_toNat_le, UInt64.lt_iff_toNat_lt, hvalue (Nat.le_refl _),
      hvalue (by omega), hone]
    omega
  · intro i
    rw [hlists, List.pairwise_map]
    refine List.Pairwise.imp_of_mem ?_ (List.pairwise_lt_range' 1)
    intro a b ha hb hlt
    have hbelow := hend i
    have hahigh := (List.mem_range'_1.mp ha).2
    have hbhigh := (List.mem_range'_1.mp hb).2
    rw [UInt64.lt_iff_toNat_lt, hvalue (by omega), hvalue (by omega)]
    exact hlt
  · intro i j id hi hj
    obtain ⟨n, hnlow, hnhigh, rfl⟩ := hmem hi
    obtain ⟨m, hmlow, hmhigh, heq⟩ := hmem hj
    have hbelow := hend i
    have hbelow' := hend j
    have hnm := congrArg (fun id : RuleId => id.value.toNat) heq
    simp only [hvalue (by omega : m ≤ next), hvalue (by omega : n ≤ next)] at hnm
    rcases hapart i j with h | h | h
    · exact h
    · omega
    · omega

end RuleIds

theorem RuleId.map_number {α : Type} {withId : α → RuleId → α} {id : α → RuleId}
    (hid : ∀ rule a, id (withId rule a) = a) (first : Nat) (rules : List α) :
    (number withId first rules).map id = (List.range' first rules.length).map ofNat := by
  induction rules generalizing first with
  | nil => rfl
  | cons rule rules ih =>
    rw [number_cons, List.map_cons, hid, ih, List.length_cons, List.range'_succ, List.map_cons]

namespace OdrlPolicy

inductive Starts : OdrlPolicy → Prop where
  | new (kind : OdrlKind) : Starts (new kind)
  | imported {document : OdrlDocument} {policy : OdrlPolicy} (h : document.toPolicy = .ok policy)
      (hfits : policy.ruleCount < RuleId.last) : Starts policy

def firstNumber (policy : OdrlPolicy) : Partition → Nat
  | .permission => 1
  | .prohibition => 1 + policy.permission.length
  | .obligation => 1 + policy.permission.length + policy.prohibition.length

theorem ordered_renumbered {policy : OdrlPolicy} (hfits : policy.ruleCount < RuleId.last) :
    policy.renumbered.ruleIds.Ordered := by
  have hid (rule : OdrlRule) (id : RuleId) : (rule.withId id).id = id := rfl
  simp only [ruleCount, RuleId.last] at hfits
  refine @RuleIds.ordered_of_ranges _ _ policy.firstNumber
    (fun partition => (policy.rulesIn partition).length)
    (1 + policy.permission.length + policy.prohibition.length + policy.obligation.length)
    ?_ rfl (by omega) ?_ ?_ ?_ (by omega)
  · intro partition
    cases partition <;> exact RuleId.map_number hid _ _
  · intro partition
    cases partition <;> simp only [firstNumber] <;> omega
  · intro partition
    cases partition <;> simp only [firstNumber, rulesIn] <;> omega
  · intro a b
    cases a <;> cases b <;>
      simp only [firstNumber, rulesIn, reduceCtorEq, true_or, false_or] <;> omega

theorem Starts.ordered {policy : OdrlPolicy} (h : policy.Starts) : policy.ruleIds.Ordered := by
  cases h with
  | new kind =>
    apply @ordered_renumbered (.new kind)
    show 0 < RuleId.last
    decide
  | imported himport hfits =>
    obtain ⟨_, _, _, _, _, _, _, _, rfl⟩ := OdrlDocument.toPolicy_eq_ok_iff.mp himport
    rw [OdrlDocument.assemble, ← renumbered_renumbered]
    exact ordered_renumbered hfits

theorem nodup_rules {policy : OdrlPolicy} (h : policy.ruleIds.Ordered) :
    (policy.rules.map fun entry => entry.2.id).Nodup := by
  have hids : policy.rules.map (fun entry => entry.2.id) =
      Vocabulary.values.flatMap policy.ruleIds.lists := by
    simp only [rules, ruleIds, List.map_flatMap, List.map_map]
    rfl
  rw [hids, List.nodup_flatMap]
  refine ⟨fun partition _ => RuleIds.nodup_lists h partition, ?_⟩
  have hvalues : (Vocabulary.values (α := Partition)).Nodup := by decide
  refine hvalues.imp ?_
  intro a b hne id ha hb
  exact hne (h.disjoint a b id ha hb)

end OdrlPolicy

namespace GenericPolicy

inductive Starts : GenericPolicy → Prop where
  | new (kind : GenericKind) : Starts (new kind)
  | imported {document : GenericDocument} {policy : GenericPolicy}
      (h : document.toPolicy = .ok policy) (hfits : policy.rules.length < RuleId.last) :
      Starts policy

theorem ordered_renumbered {policy : GenericPolicy} (hfits : policy.rules.length < RuleId.last) :
    policy.renumbered.ruleIds.Ordered := by
  simp only [RuleId.last] at hfits
  refine @RuleIds.ordered_of_ranges _ _ (fun _ => 1) (fun _ => policy.rules.length)
    (1 + policy.rules.length) ?_ rfl (by omega) ?_ ?_ ?_ (by omega)
  · intro _
    exact RuleId.map_number (fun _ _ => rfl) _ _
  · intro _
    exact Nat.le_refl _
  · intro _
    exact Nat.le_refl _
  · intro _ _
    exact .inl rfl

theorem Starts.ordered {policy : GenericPolicy} (h : policy.Starts) : policy.ruleIds.Ordered := by
  cases h with
  | new kind =>
    apply @ordered_renumbered (.new kind)
    show 0 < RuleId.last
    decide
  | imported himport hfits =>
    obtain ⟨_, _, _, _, _, _, _, _, rfl⟩ := GenericDocument.toPolicy_eq_ok_iff.mp himport
    rw [GenericDocument.assemble, ← renumbered_renumbered]
    exact ordered_renumbered hfits

end GenericPolicy

theorem rule_ids_of_runs :
    (∀ start history policy, OdrlPolicy.Starts start →
      OdrlPolicy.editor.Runs start history policy →
        OdrlPolicy.editor.KeepsIds history policy ∧
          (policy.rules.map fun entry => entry.2.id).Nodup) ∧
    ∀ start history policy, GenericPolicy.Starts start →
      GenericPolicy.editor.Runs start history policy →
        GenericPolicy.editor.KeepsIds history policy ∧ (policy.rules.map (·.id)).Nodup := by
  refine ⟨?_, ?_⟩
  · intro start history policy hstart hruns
    have hkeeps := Editor.keepsIds_of_runs hruns hstart.ordered
    exact ⟨hkeeps, OdrlPolicy.nodup_rules hkeeps.ordered⟩
  · intro start history policy hstart hruns
    have hkeeps := Editor.keepsIds_of_runs hruns hstart.ordered
    exact ⟨hkeeps, RuleIds.nodup_lists hkeeps.ordered ()⟩

theorem rule_ids_of_replacement :
    let offered : List (OdrlEdit × EditAnswer) :=
      [(.addRule .permission, .newRule ⟨1⟩), (.removeRule ⟨1⟩, .changed),
        (.withRule .obligation .use, .newRule ⟨2⟩),
        (.updateRule ⟨1⟩ (.action none), .refused (.ruleNotFound ⟨1⟩))]
    let imported : List (GenericEdit × EditAnswer) :=
      [(.removeRule ⟨1⟩, .changed), (.addRule, .newRule ⟨2⟩),
        (.removeRule ⟨1⟩, .refused (.ruleNotFound ⟨1⟩))]
    (∃ policy, OdrlPolicy.editor.Runs (.new .offer) offered policy ∧
      OdrlPolicy.editor.KeepsIds offered policy ∧
      (∀ step ∈ offered.drop 1, step.2 ≠ .newRule ⟨1⟩) ∧
      (∀ step ∈ offered.drop 2, OdrlEdit.addressee? step.1 = some ⟨1⟩ →
        step.2 = .refused (.ruleNotFound ⟨1⟩))) ∧
    ∃ start policy, (GenericPolicy.new .access).addRule.1.toDocument.toPolicy = .ok start ∧
      GenericPolicy.editor.Runs start imported policy ∧
      GenericPolicy.editor.KeepsIds imported policy := by
  intro offered imported
  refine ⟨?_, ?_⟩
  · obtain ⟨policy, hruns⟩ : ∃ policy, OdrlPolicy.editor.Runs (.new .offer) offered policy :=
      ⟨_, .cons (by decide) (.cons (by decide) (.cons (by decide) (.cons (by decide) (.nil _))))⟩
    obtain ⟨hkeeps, -⟩ := rule_ids_of_runs.1 _ _ _ (.new .offer) hruns
    refine ⟨policy, hruns, hkeeps, ?_, ?_⟩
    · exact hkeeps.newRule_ne [] (.addRule .permission) ⟨1⟩ _ rfl
    · exact hkeeps.refused [(.addRule .permission, .newRule ⟨1⟩)] ⟨1⟩ _ rfl
  · obtain ⟨start, himport, hfits, policy, hruns⟩ : ∃ start,
        (GenericPolicy.new .access).addRule.1.toDocument.toPolicy = .ok start ∧
        start.rules.length < RuleId.last ∧
        ∃ policy, GenericPolicy.editor.Runs start imported policy :=
      ⟨_, rfl, by decide,
        _, .cons (by decide) (.cons (by decide) (.cons (by decide) (.nil _)))⟩
    obtain ⟨hkeeps, -⟩ := rule_ids_of_runs.2 _ _ _ (.imported himport hfits) hruns
    exact ⟨start, policy, himport, hruns, hkeeps⟩

end RightsPolicy
