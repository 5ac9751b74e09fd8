import RightsPolicy.Proofs.Policy.Addressed

namespace RightsPolicy

section ReplaceFirst

variable {α : Type} (key : α → RuleId)

def replaceFirst (id : RuleId) (edited : Option α) : List α → List α
  | [] => []
  | a :: items =>
    if key a = id then edited.toList ++ items else a :: replaceFirst id edited items

variable {key} {a b : RuleId} {edited other : Option α}

theorem replaceFirst_cons_of_eq {first : α} (h : key first = a) (items : List α) :
    replaceFirst key a edited (first :: items) = edited.toList ++ items :=
  if_pos h

theorem replaceFirst_cons_of_ne {first : α} (h : key first ≠ a) (items : List α) :
    replaceFirst key a edited (first :: items) = first :: replaceFirst key a edited items :=
  if_neg h

theorem replaceFirst_split {before behind : List α} {item : α}
    (hfirst : ∀ other ∈ before, key other ≠ a) (hitem : key item = a) :
    replaceFirst key a edited (before ++ item :: behind) = before ++ edited.toList ++ behind := by
  induction before with
  | nil => exact replaceFirst_cons_of_eq hitem behind
  | cons first before ih =>
    obtain ⟨hne, hfirst⟩ := List.forall_mem_cons.mp hfirst
    rw [List.cons_append, replaceFirst_cons_of_ne hne, ih hfirst]
    rfl

theorem replaceFirst_of_absent {items : List α} (h : ∀ item ∈ items, key item ≠ a) :
    replaceFirst key a edited items = items := by
  induction items with
  | nil => rfl
  | cons first items ih =>
    obtain ⟨hne, h⟩ := List.forall_mem_cons.mp h
    rw [replaceFirst_cons_of_ne hne, ih h]

section Other

variable (hne : a ≠ b) (hedited : ∀ item ∈ edited, key item = a) (items : List α)

include hne hedited

theorem ne_of_mem_toList : ∀ item ∈ edited.toList, key item ≠ b := by
  intro item hitem hb
  exact hne ((hedited item (Option.mem_toList.mp hitem)).symm.trans hb)

theorem find?_replaceFirst : (replaceFirst key a edited items).find? (fun item => key item = b) =
    items.find? fun item => key item = b := by
  induction items with
  | nil => rfl
  | cons first items ih =>
    by_cases ha : key first = a
    · have hskip : ¬ key first = b := fun hb => hne (ha.symm.trans hb)
      have hnone : edited.toList.find? (fun item => key item = b) = none := by
        simpa using ne_of_mem_toList hne hedited
      rw [replaceFirst_cons_of_eq ha, List.find?_append, hnone, Option.none_or,
        List.find?_cons_of_neg (by simpa using hskip)]
    · rw [replaceFirst_cons_of_ne ha, List.find?_cons, List.find?_cons, ih]

theorem replaceFirst_toList_append : replaceFirst key b other (edited.toList ++ items) =
    edited.toList ++ replaceFirst key b other items := by
  cases edited with
  | none => rfl
  | some item => exact replaceFirst_cons_of_ne (ne_of_mem_toList hne hedited item (by simp)) items

end Other

theorem replaceFirst_comm (hne : a ≠ b) (hedited : ∀ item ∈ edited, key item = a)
    (hother : ∀ item ∈ other, key item = b) (items : List α) :
    replaceFirst key b other (replaceFirst key a edited items) =
      replaceFirst key a edited (replaceFirst key b other items) := by
  induction items with
  | nil => rfl
  | cons first items ih =>
    by_cases ha : key first = a
    · have hb : key first ≠ b := fun hb => hne (ha.symm.trans hb)
      rw [replaceFirst_cons_of_eq ha, replaceFirst_cons_of_ne hb, replaceFirst_cons_of_eq ha,
        replaceFirst_toList_append hne hedited]
    · by_cases hb : key first = b
      · rw [replaceFirst_cons_of_ne ha, replaceFirst_cons_of_eq hb, replaceFirst_cons_of_eq hb,
          replaceFirst_toList_append hne.symm hother]
      · rw [replaceFirst_cons_of_ne ha, replaceFirst_cons_of_ne hb, replaceFirst_cons_of_ne hb,
          replaceFirst_cons_of_ne ha, ih]

end ReplaceFirst

structure Editor.Commute {σ ε ι : Type} [DecidableEq ι] (editor : Editor σ ε ι) (policy : σ)
    (e f : ε) : Prop where
  first : (editor.edit (editor.edit policy f).2 e).1 = (editor.edit policy e).1
  second : (editor.edit (editor.edit policy e).2 f).1 = (editor.edit policy f).1
  policy : (editor.edit (editor.edit policy e).2 f).2 = (editor.edit (editor.edit policy f).2 e).2

theorem Editor.commute_of_eq {σ ε ι : Type} [DecidableEq ι] {editor : Editor σ ε ι}
    {policy first second both both' : σ} {e f : ε} {answer answer' : EditAnswer}
    (he : editor.edit policy e = (answer, first)) (hf : editor.edit policy f = (answer', second))
    (he' : editor.edit second e = (answer, both')) (hf' : editor.edit first f = (answer', both))
    (hboth : both = both') : editor.Commute policy e f where
  first := by rw [hf, he', he]
  second := by rw [he, hf', hf]
  policy := by rw [he, hf', hf, he', hboth]

namespace OdrlPolicy

variable {a b : RuleId} {edited other : Option OdrlRule}

def replaceRule (policy : OdrlPolicy) (partition : Partition) (id : RuleId)
    (edited : Option OdrlRule) : OdrlPolicy :=
  policy.setRulesIn partition (replaceFirst OdrlRule.id id edited (policy.rulesIn partition))

theorem replaceRule_comm (hne : a ≠ b) (hedited : ∀ rule ∈ edited, rule.id = a)
    (hother : ∀ rule ∈ other, rule.id = b) (policy : OdrlPolicy) (partition place : Partition) :
    (policy.replaceRule partition a edited).replaceRule place b other =
      (policy.replaceRule place b other).replaceRule partition a edited := by
  have hcomm := replaceFirst_comm hne hedited hother
  cases partition <;> cases place <;> simp [replaceRule, setRulesIn, rulesIn, hcomm]

theorem rule?_replaceRule (hne : a ≠ b) (hedited : ∀ rule ∈ edited, rule.id = a)
    (policy : OdrlPolicy) (partition : Partition) :
    (policy.replaceRule partition a edited).rule? b = policy.rule? b := by
  have hfind (place : Partition) :
      ((policy.replaceRule partition a edited).rulesIn place).find? (fun rule => rule.id = b) =
        (policy.rulesIn place).find? fun rule => rule.id = b := by
    have hsame := find?_replaceFirst hne hedited
    cases partition <;> cases place <;> simp [replaceRule, setRulesIn, rulesIn, hsame]
  simp only [rule?_eq, hfind]

theorem edit_eq_replaceRule (policy : OdrlPolicy) (id : RuleId) (e : OdrlRuleEdit) :
    ∃ answer partition edited, (∀ rule ∈ edited, rule.id = id) ∧
      ∀ other : OdrlPolicy, other.rule? id = policy.rule? id →
        other.edit (e.on id) = (answer, other.replaceRule partition id edited) := by
  cases hrule : policy.rule? id with
  | none =>
    -- no partition has the rule, so any one will do
    refine ⟨.refused (.ruleNotFound id), .permission, none, by simp, ?_⟩
    intro other hother
    have habsent : ∀ rule ∈ other.permission, rule.id ≠ id := by
      intro rule hmem hid
      exact rule?_eq_none_iff.mp hother .permission (List.mem_map.mpr ⟨rule, hmem, hid⟩)
    rw [edit_of_rule?_eq_none hother, replaceRule, rulesIn, replaceFirst_of_absent habsent]
    rfl
  | some entry =>
    obtain ⟨partition, rule⟩ := entry
    obtain ⟨answer, edited, hresult⟩ := e.exists_result rule
    obtain ⟨_, _, hhere⟩ := located_of_rule? hrule
    have hids : ∀ rule ∈ edited, rule.id = id :=
      fun other hother => (hresult.id_eq other hother).trans hhere.id_eq
    refine ⟨answer, partition, edited, hids, ?_⟩
    intro other hother
    obtain ⟨before, behind, hlocated⟩ := located_of_rule? hother
    rw [edit_located hlocated hresult, replaceRule, hlocated.rules,
      replaceFirst_split hlocated.first hlocated.id_eq]

theorem commute_edit (hne : a ≠ b) (policy : OdrlPolicy) (e f : OdrlRuleEdit) :
    editor.Commute policy (e.on a) (f.on b) := by
  obtain ⟨answer, partition, edited, hedited, he⟩ := edit_eq_replaceRule policy a e
  obtain ⟨answer', place, other, hother, hf⟩ := edit_eq_replaceRule policy b f
  have he' := he _ (rule?_replaceRule hne.symm hother policy place)
  have hf' := hf _ (rule?_replaceRule hne hedited policy partition)
  have hcomm := replaceRule_comm hne hedited hother policy partition place
  exact Editor.commute_of_eq (he policy rfl) (hf policy rfl) he' hf' hcomm

end OdrlPolicy

namespace GenericPolicy

variable {a b : RuleId} {edited other : Option GenericRule}

def replaceRule (policy : GenericPolicy) (id : RuleId) (edited : Option GenericRule) :
    GenericPolicy :=
  { policy with rules := replaceFirst GenericRule.id id edited policy.rules }

theorem edit_eq_replaceRule (policy : GenericPolicy) (id : RuleId) (e : GenericRuleEdit) :
    ∃ answer edited, (∀ rule ∈ edited, rule.id = id) ∧
      ∀ other : GenericPolicy, other.rule? id = policy.rule? id →
        other.edit (e.on id) = (answer, other.replaceRule id edited) := by
  cases hrule : policy.rule? id with
  | none =>
    refine ⟨.refused (.ruleNotFound id), none, by simp, ?_⟩
    intro other hother
    have habsent : ∀ rule ∈ other.rules, rule.id ≠ id := by simpa [rule?] using hother
    rw [edit_of_rule?_eq_none hother, replaceRule, replaceFirst_of_absent habsent]
  | some rule =>
    obtain ⟨before, behind, hlocated⟩ := located_of_rule? hrule
    refine ⟨.changed, e.result rule, ?_, ?_⟩
    · cases e with
      | update field =>
        rintro _ ⟨⟩
        cases field <;> exact hlocated.id_eq
      | remove => simp [GenericRuleEdit.result]
    · intro other hother
      obtain ⟨before, behind, hlocated⟩ := located_of_rule? hother
      rw [edit_located hlocated, replaceRule, hlocated.rules,
        replaceFirst_split hlocated.first hlocated.id_eq]

theorem commute_edit (hne : a ≠ b) (policy : GenericPolicy) (e f : GenericRuleEdit) :
    editor.Commute policy (e.on a) (f.on b) := by
  obtain ⟨answer, edited, hedited, he⟩ := edit_eq_replaceRule policy a e
  obtain ⟨answer', other, hother, hf⟩ := edit_eq_replaceRule policy b f
  have he' := he (policy.replaceRule b other) (find?_replaceFirst hne.symm hother policy.rules)
  have hf' := hf (policy.replaceRule a edited) (find?_replaceFirst hne hedited policy.rules)
  have hcomm : (policy.replaceRule a edited).replaceRule b other =
      (policy.replaceRule b other).replaceRule a edited := by
    simp only [replaceRule, replaceFirst_comm hne hedited hother]
  exact Editor.commute_of_eq (he policy rfl) (hf policy rfl) he' hf' hcomm

end GenericPolicy

theorem edits_of_different_rules_commute {a b : RuleId} (hne : a ≠ b) :
    (∀ (policy : OdrlPolicy) (e f : OdrlRuleEdit),
      OdrlPolicy.editor.Commute policy (e.on a) (f.on b)) ∧
    ∀ (policy : GenericPolicy) (e f : GenericRuleEdit),
      GenericPolicy.editor.Commute policy (e.on a) (f.on b) := by
  refine ⟨?_, ?_⟩
  · exact OdrlPolicy.commute_edit hne
  · exact GenericPolicy.commute_edit hne

theorem edits_of_drafted_rules_commute :
    OdrlPolicy.draftedSet.Reachable ∧ (⟨1⟩ : RuleId) ≠ ⟨2⟩ ∧
      (OdrlPolicy.draftedSet.edit (.removeRule ⟨1⟩)).1 = .changed ∧
      (OdrlPolicy.draftedSet.edit (.addConstraint ⟨2⟩)).1 = .newConstraint 2 ∧
      OdrlPolicy.editor.Commute OdrlPolicy.draftedSet (.removeRule ⟨1⟩) (.addConstraint ⟨2⟩) := by
  have hne : (⟨1⟩ : RuleId) ≠ ⟨2⟩ := by decide
  exact ⟨OdrlPolicy.reachable_draftedSet, hne, by decide, by decide,
    (edits_of_different_rules_commute hne).1 OdrlPolicy.draftedSet .remove .addConstraint⟩

end RightsPolicy
