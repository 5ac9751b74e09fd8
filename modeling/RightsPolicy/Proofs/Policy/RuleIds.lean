import Mathlib.Logic.Function.Basic
import RightsPolicy.Error

namespace RightsPolicy

inductive EditAnswer where
  | changed
  | newRule (id : RuleId)
  | newConstraint (index : Nat)
  | refused (cause : PolicyError)
  deriving DecidableEq

structure RuleIds (ι : Type) where
  lists : ι → List RuleId
  next : RuleId

namespace RuleId

def last : Nat := UInt64.size - 1

theorem toNat_next {id : RuleId} (h : id.value.toNat < last) :
    id.next.value.toNat = id.value.toNat + 1 := by
  have hsize : id.value.toNat + 1 < UInt64.size := by
    simp only [last] at h
    omega
  rw [next, UInt64.toNat_add]
  exact Nat.mod_eq_of_lt hsize

theorem lt_next {id : RuleId} (h : id.value.toNat < last) : id.value < id.next.value := by
  rw [UInt64.lt_iff_toNat_lt, toNat_next h]
  exact Nat.lt_succ_self _

end RuleId

namespace RuleIds

variable {ι : Type}

structure Ordered (ids : RuleIds ι) : Prop where
  positive : 1 ≤ ids.next.value
  bounded : ∀ i, ∀ id ∈ ids.lists i, 1 ≤ id.value ∧ id.value < ids.next.value
  rising : ∀ i, (ids.lists i).Pairwise fun a b => a.value < b.value
  disjoint : ∀ i j, ∀ id ∈ ids.lists i, id ∈ ids.lists j → i = j

structure Gone (ids : RuleIds ι) (id : RuleId) : Prop where
  below : id.value < ids.next.value
  absent : ∀ i, id ∉ ids.lists i

theorem nodup_lists {ids : RuleIds ι} (h : ids.Ordered) (i : ι) : (ids.lists i).Nodup := by
  refine (h.rising i).imp ?_
  intro a b hlt heq
  rw [heq] at hlt
  exact UInt64.lt_irrefl _ hlt

variable [DecidableEq ι]

def add (ids : RuleIds ι) (i : ι) : RuleIds ι where
  lists := Function.update ids.lists i (ids.lists i ++ [ids.next])
  next := ids.next.next

def eraseAt (ids : RuleIds ι) (i : ι) (index : Nat) : RuleIds ι where
  lists := Function.update ids.lists i ((ids.lists i).eraseIdx index)
  next := ids.next

theorem lists_add (ids : RuleIds ι) (i j : ι) : (ids.add i).lists j =
    if j = i then ids.lists i ++ [ids.next] else ids.lists j :=
  Function.update_apply _ _ _ _

theorem lists_eraseAt (ids : RuleIds ι) (i : ι) (index : Nat) (j : ι) :
    (ids.eraseAt i index).lists j =
      if j = i then (ids.lists i).eraseIdx index else ids.lists j :=
  Function.update_apply _ _ _ _

theorem mem_add {ids : RuleIds ι} {i j : ι} {id : RuleId} :
    id ∈ (ids.add i).lists j ↔ id ∈ ids.lists j ∨ j = i ∧ id = ids.next := by
  rw [lists_add]
  split
  · rename_i h
    simp [h]
  · rename_i h
    simp [h]

theorem mem_of_mem_eraseAt {ids : RuleIds ι} {i j : ι} {index : Nat} {id : RuleId}
    (h : id ∈ (ids.eraseAt i index).lists j) : id ∈ ids.lists j := by
  rw [lists_eraseAt] at h
  split at h
  · rename_i hij
    rw [hij]
    exact List.mem_of_mem_eraseIdx h
  · exact h

inductive Step (ids : RuleIds ι) : EditAnswer → RuleIds ι → Prop where
  | kept {answer} (h : ∀ id, answer ≠ .newRule id) : Step ids answer ids
  | added (i : ι) : Step ids (.newRule ids.next) (ids.add i)
  | removed (i : ι) (index : Nat) : Step ids .changed (ids.eraseAt i index)

variable {ids after : RuleIds ι} {answer : EditAnswer}

theorem next_le_of_step (h : ids.Step answer after) (hsteady : ids.next.value.toNat < RuleId.last) :
    ids.next.value ≤ after.next.value := by
  cases h with
  | kept => exact UInt64.le_refl _
  | added i => exact UInt64.le_of_lt (RuleId.lt_next hsteady)
  | removed => exact UInt64.le_refl _

theorem newRule_of_step {id : RuleId} (h : ids.Step (.newRule id) after)
    (hsteady : ids.next.value.toNat < RuleId.last) :
    id = ids.next ∧ id.value < after.next.value := by
  cases h with
  | kept hne => exact absurd rfl (hne id)
  | added i => exact ⟨rfl, RuleId.lt_next hsteady⟩

theorem mem_of_step (h : ids.Step answer after) {i : ι} {id : RuleId} (hmem : id ∈ after.lists i) :
    id ∈ ids.lists i ∨ id = ids.next := by
  cases h with
  | kept => exact .inl hmem
  | added j =>
    rcases mem_add.mp hmem with hmem | ⟨_, rfl⟩
    · exact .inl hmem
    · exact .inr rfl
  | removed => exact .inl (mem_of_mem_eraseAt hmem)

theorem ordered_add (h : ids.Ordered) (hsteady : ids.next.value.toNat < RuleId.last) (i : ι) :
    (ids.add i).Ordered := by
  have hlt : ids.next.value < (ids.add i).next.value := RuleId.lt_next hsteady
  refine ⟨UInt64.le_trans h.positive (UInt64.le_of_lt hlt), ?_, ?_, ?_⟩
  · intro j id hmem
    rcases mem_add.mp hmem with hmem | ⟨_, rfl⟩
    · obtain ⟨hone, hbelow⟩ := h.bounded j id hmem
      exact ⟨hone, UInt64.lt_trans hbelow hlt⟩
    · exact ⟨h.positive, hlt⟩
  · intro j
    rw [lists_add]
    split
    · rw [List.pairwise_append]
      refine ⟨h.rising i, List.pairwise_singleton _ _, ?_⟩
      intro a ha b hb
      rw [List.mem_singleton.mp hb]
      exact (h.bounded i a ha).2
    · exact h.rising j
  · intro j k id hj hk
    have hnew (l : ι) : ids.next ∉ ids.lists l := by
      intro hmem
      exact UInt64.lt_irrefl _ (h.bounded l ids.next hmem).2
    rcases mem_add.mp hj with hold | ⟨rfl, rfl⟩ <;> rcases mem_add.mp hk with hother | ⟨rfl, hid⟩
    · exact h.disjoint j k id hold hother
    · exact absurd (hid ▸ hold) (hnew j)
    · exact absurd hother (hnew k)
    · rfl

theorem ordered_eraseAt (h : ids.Ordered) (i : ι) (index : Nat) :
    (ids.eraseAt i index).Ordered where
  positive := h.positive
  bounded j id hmem := h.bounded j id (mem_of_mem_eraseAt hmem)
  rising j := by
    rw [lists_eraseAt]
    split
    · exact (h.rising i).eraseIdx index
    · exact h.rising j
  disjoint j k id hj hk := h.disjoint j k id (mem_of_mem_eraseAt hj) (mem_of_mem_eraseAt hk)

theorem Ordered.step (h : ids.Ordered) (hsteady : ids.next.value.toNat < RuleId.last)
    (hstep : ids.Step answer after) : after.Ordered := by
  cases hstep with
  | kept => exact h
  | added i => exact ordered_add h hsteady i
  | removed i index => exact ordered_eraseAt h i index

theorem gone_eraseAt (h : ids.Ordered) {i : ι} {index : Nat} {id : RuleId}
    (hid : (ids.lists i)[index]? = some id) : (ids.eraseAt i index).Gone id := by
  have hmem := List.mem_of_getElem? hid
  refine ⟨(h.bounded i id hmem).2, ?_⟩
  intro j hj
  obtain rfl := h.disjoint j i id (mem_of_mem_eraseAt hj) hmem
  obtain ⟨hlt, hget⟩ := List.getElem?_eq_some_iff.mp hid
  rw [lists_eraseAt, if_pos rfl, ← hget] at hj
  obtain ⟨k, hne, hk⟩ := List.mem_eraseIdx_iff_getElem?.mp hj
  rw [← List.getElem?_eq_getElem hlt] at hk
  exact hne ((List.getElem?_inj hlt (nodup_lists h j)).mp hk.symm).symm

theorem Gone.step {id : RuleId} (h : ids.Gone id) (hsteady : ids.next.value.toNat < RuleId.last)
    (hstep : ids.Step answer after) : after.Gone id := by
  refine ⟨UInt64.lt_of_lt_of_le h.below (next_le_of_step hstep hsteady), ?_⟩
  intro i hmem
  rcases mem_of_step hstep hmem with hmem | rfl
  · exact h.absent i hmem
  · exact UInt64.lt_irrefl _ h.below

end RuleIds

structure Editor (σ ε ι : Type) [DecidableEq ι] where
  edit : σ → ε → EditAnswer × σ
  ids : σ → RuleIds ι
  addressee? : ε → Option RuleId
  removal : RuleId → ε
  step : ∀ policy e, (ids policy).Step (edit policy e).1 (ids (edit policy e).2)
  refuses : ∀ policy e id, addressee? e = some id → (∀ i, id ∉ (ids policy).lists i) →
    (edit policy e).1 = .refused (.ruleNotFound id)
  removes : ∀ policy id, (edit policy (removal id)).1 = .changed →
    ∃ i index, ((ids policy).lists i)[index]? = some id ∧
      ids (edit policy (removal id)).2 = (ids policy).eraseAt i index

namespace Editor

variable {σ ε ι : Type} [DecidableEq ι] (editor : Editor σ ε ι)

inductive Runs : σ → List (ε × EditAnswer) → σ → Prop where
  | nil (policy : σ) : Runs policy [] policy
  | cons {policy last : σ} {e : ε} {history : List (ε × EditAnswer)}
      (hsteady : (editor.ids policy).next.value.toNat < RuleId.last)
      (hrest : Runs (editor.edit policy e).2 history last) :
      Runs policy ((e, (editor.edit policy e).1) :: history) last

variable {editor} {policy last : σ} {history : List (ε × EditAnswer)}

theorem ordered_of_runs (h : editor.Runs policy history last) (hids : (editor.ids policy).Ordered) :
    (editor.ids last).Ordered := by
  induction h with
  | nil => exact hids
  | @cons policy last e history hsteady _ ih =>
    apply ih
    exact hids.step hsteady (editor.step policy e)

theorem exists_of_runs_append {before after : List (ε × EditAnswer)}
    (h : editor.Runs policy (before ++ after) last) :
    ∃ middle, editor.Runs policy before middle ∧ editor.Runs middle after last := by
  induction before generalizing policy with
  | nil => exact ⟨policy, .nil policy, h⟩
  | cons step before ih =>
    cases h with
    | cons hsteady hrest =>
      obtain ⟨middle, hbefore, hafter⟩ := ih hrest
      exact ⟨middle, .cons hsteady hbefore, hafter⟩

theorem next_le_of_newRule (h : editor.Runs policy history last) {id : RuleId} {e : ε}
    (hmem : (e, .newRule id) ∈ history) : (editor.ids policy).next.value ≤ id.value := by
  induction h with
  | nil => cases hmem
  | @cons policy last first history hsteady _ ih =>
    have hstep := editor.step policy first
    rcases List.mem_cons.mp hmem with heq | hmem
    · obtain ⟨-, hanswer⟩ := Prod.mk.inj heq
      rw [← hanswer] at hstep
      obtain ⟨rfl, -⟩ := RuleIds.newRule_of_step hstep hsteady
      exact UInt64.le_refl _
    · exact UInt64.le_trans (RuleIds.next_le_of_step hstep hsteady) (ih hmem)

theorem refused_of_gone (h : editor.Runs policy history last) {id : RuleId}
    (hgone : (editor.ids policy).Gone id) {e : ε} {answer : EditAnswer}
    (hmem : (e, answer) ∈ history) (haddressee : editor.addressee? e = some id) :
    answer = .refused (.ruleNotFound id) := by
  induction h with
  | nil => cases hmem
  | @cons policy last first history hsteady _ ih =>
    rcases List.mem_cons.mp hmem with heq | hmem
    · obtain ⟨rfl, rfl⟩ := Prod.mk.inj heq
      exact editor.refuses policy e id haddressee hgone.absent
    · apply ih _ hmem
      exact hgone.step hsteady (editor.step policy first)

variable (editor) in
structure KeepsIds (history : List (ε × EditAnswer)) (last : σ) : Prop where
  ordered : (editor.ids last).Ordered
  newRule_ne : ∀ before e id after, history = before ++ (e, .newRule id) :: after →
    ∀ step ∈ after, step.2 ≠ .newRule id
  refused : ∀ before id after, history = before ++ (editor.removal id, .changed) :: after →
    ∀ step ∈ after, editor.addressee? step.1 = some id →
      step.2 = .refused (.ruleNotFound id)

theorem keepsIds_of_runs (h : editor.Runs policy history last)
    (hids : (editor.ids policy).Ordered) : editor.KeepsIds history last := by
  refine ⟨ordered_of_runs h hids, ?_, ?_⟩
  · rintro before e id after rfl ⟨later, answer⟩ hmem rfl
    obtain ⟨middle, -, hafter⟩ := exists_of_runs_append h
    generalize hanswer : EditAnswer.newRule id = given at hafter
    cases hafter with
    | cons hsteady hrest =>
      have hstep := editor.step middle e
      rw [← hanswer] at hstep
      have hlt := (RuleIds.newRule_of_step hstep hsteady).2
      have hle := next_le_of_newRule hrest hmem
      exact UInt64.lt_irrefl _ (UInt64.lt_of_lt_of_le hlt hle)
  · rintro before id after rfl ⟨later, answer⟩ hmem haddressee
    obtain ⟨middle, hbefore, hafter⟩ := exists_of_runs_append h
    generalize hanswer : EditAnswer.changed = given at hafter
    cases hafter with
    | cons hsteady hrest =>
      obtain ⟨i, index, hid, hafter⟩ := editor.removes middle id hanswer.symm
      have hgone := RuleIds.gone_eraseAt (ordered_of_runs hbefore hids) hid
      rw [← hafter] at hgone
      exact refused_of_gone hrest hgone hmem haddressee

end Editor

end RightsPolicy
