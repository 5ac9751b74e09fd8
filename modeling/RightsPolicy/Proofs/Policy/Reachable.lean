import RightsPolicy.Proofs.Policy.Editing

namespace RightsPolicy

theorem RuleIds.place_unique {ι : Type} {ids : RuleIds ι} (h : ids.Ordered) {i j : ι} {k l : Nat}
    {id : RuleId} (hk : (ids.lists i)[k]? = some id) (hl : (ids.lists j)[l]? = some id) :
    i = j ∧ k = l := by
  obtain rfl := h.disjoint i j id (List.mem_of_getElem? hk) (List.mem_of_getElem? hl)
  have hlt := (List.getElem?_eq_some_iff.mp hk).1
  exact ⟨rfl, (List.getElem?_inj hlt (nodup_lists h i)).mp (hk.trans hl.symm)⟩

namespace Editor

variable {σ ε ι : Type} [DecidableEq ι]

/-- What edits lead to. A new rule is added only while the counter has an id after that rule's. -/
inductive Reaches (editor : Editor σ ε ι) (starts : σ → Prop) : σ → Prop where
  | start {policy} (h : starts policy) : Reaches editor starts policy
  | edit {policy} (h : Reaches editor starts policy) (e : ε)
      (hroom : ∀ id, (editor.edit policy e).1 = .newRule id →
        (editor.ids policy).next.value.toNat < RuleId.last) :
      Reaches editor starts (editor.edit policy e).2

theorem Reaches.ordered {editor : Editor σ ε ι} {starts : σ → Prop} {policy : σ}
    (hstarts : ∀ start, starts start → (editor.ids start).Ordered)
    (h : editor.Reaches starts policy) : (editor.ids policy).Ordered := by
  induction h with
  | start hstart => exact hstarts _ hstart
  | @edit policy _ e hroom ih =>
    have hstep := editor.step policy e
    generalize (editor.edit policy e).1 = answer at hstep hroom
    generalize editor.ids (editor.edit policy e).2 = ids at hstep ⊢
    cases hstep with
    | kept => exact ih
    | added i => exact RuleIds.ordered_add ih (hroom _ rfl) i
    | removed i index => exact RuleIds.ordered_eraseAt ih i index

end Editor

namespace OdrlPolicy

def Reachable : OdrlPolicy → Prop :=
  editor.Reaches Starts

variable {policy : OdrlPolicy} {partition : Partition} {index : Nat} {rule : OdrlRule}

theorem Reachable.ordered (h : policy.Reachable) : policy.ruleIds.Ordered :=
  Editor.Reaches.ordered (fun _ hstart => hstart.ordered) h

theorem place?_of_getElem? (hids : policy.ruleIds.Ordered)
    (hrule : (policy.rulesIn partition)[index]? = some rule) :
    policy.place? rule.id = some (partition, index) := by
  have hid := getElem?_ruleIds hrule
  cases hplace : policy.place? rule.id with
  | none => exact absurd (List.mem_of_getElem? hid) (place?_eq_none_iff.mp hplace partition)
  | some place =>
    obtain ⟨other, hother, heq⟩ := getElem?_of_place? hplace
    have hfound := getElem?_ruleIds hother
    rw [heq] at hfound
    obtain ⟨hpartition, hindex⟩ := RuleIds.place_unique hids hfound hid
    exact congrArg some (Prod.ext hpartition hindex)

def draftedSet : OdrlPolicy :=
  [OdrlEdit.addRule .permission, .addRule .obligation, .addConstraint ⟨2⟩, .addConstraint ⟨2⟩].foldl
    (fun policy e => (policy.edit e).2) (.new .set)

theorem reachable_draftedSet : draftedSet.Reachable := by
  have hpermission := @Editor.Reaches.edit _ _ _ _ editor Starts _ (.start (.new .set))
    (.addRule .permission) (fun _ _ => by decide)
  have hobligation := hpermission.edit (.addRule .obligation) (fun _ _ => by decide)
  exact (hobligation.edit (.addConstraint ⟨2⟩) (fun _ _ => by decide)).edit
    (.addConstraint ⟨2⟩) (fun _ _ => by decide)

end OdrlPolicy

namespace GenericPolicy

def Reachable : GenericPolicy → Prop :=
  editor.Reaches Starts

variable {policy : GenericPolicy} {index : Nat} {rule : GenericRule}

theorem Reachable.ordered (h : policy.Reachable) : policy.ruleIds.Ordered :=
  Editor.Reaches.ordered (fun _ hstart => hstart.ordered) h

theorem place?_of_getElem? (hids : policy.ruleIds.Ordered)
    (hrule : policy.rules[index]? = some rule) : policy.place? rule.id = some index := by
  have hid := getElem?_ruleIds hrule
  cases hplace : policy.place? rule.id with
  | none => exact absurd (List.mem_of_getElem? hid) (place?_eq_none_iff.mp hplace ())
  | some found =>
    obtain ⟨other, hother, heq⟩ := getElem?_of_place? hplace
    have hfound := getElem?_ruleIds hother
    rw [heq] at hfound
    obtain ⟨-, hindex⟩ := RuleIds.place_unique hids hfound hid
    rw [hindex]

def draftedAccess : GenericPolicy :=
  [GenericEdit.addRule, .addRule].foldl (fun policy e => (policy.edit e).2) (.new .access)

theorem reachable_draftedAccess : draftedAccess.Reachable := by
  have hfirst := @Editor.Reaches.edit _ _ _ _ editor Starts _ (.start (.new .access)) .addRule
    (fun _ _ => by decide)
  exact hfirst.edit .addRule (fun _ _ => by decide)

end GenericPolicy

end RightsPolicy
