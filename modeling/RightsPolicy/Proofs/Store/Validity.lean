import RightsPolicy.Proofs.Store.KeySpace
import RightsPolicy.Proofs.Validation.Requirements

namespace RightsPolicy

namespace OdrlPolicy

variable {policy : OdrlPolicy} {uid : String}

theorem violations_eq_append_set (policy : OdrlPolicy) (huid : Text.isBlank uid = false) :
    policy.violations =
      violationIf (Text.isBlank policy.uid) .missingUid .policy "uid" ++
        (policy.set (.uid uid)).violations := by
  have hfields : policy.fieldViolations =
      violationIf (Text.isBlank policy.uid) .missingUid .policy "uid" ++
        (policy.set (.uid uid)).fieldViolations := by
    rw [fieldViolations, fieldViolations, set, huid]
    simp only [List.append_assoc]
    rfl
  rw [violations, hfields, List.append_assoc]
  rfl

theorem exists_missingUid_iff :
    (∃ violation ∈ policy.violations, violation.code = .missingUid) ↔
      Text.isBlank policy.uid = true := by
  constructor
  · rintro ⟨violation, hmem, hcode⟩
    cases unmet_of_mem_violations hmem with
    | uid hblank => exact Text.isBlank_iff.mpr hblank
    | _ => cases hcode
  · intro hblank
    exact ⟨_, mem_violations_of_unmet (.uid (Text.isBlank_iff.mp hblank)), rfl⟩

theorem violations_set_uid (huid : Text.isBlank uid = false) :
    (policy.set (.uid uid)).violations =
      policy.violations.erase ⟨.missingUid, .policy, "uid"⟩ := by
  rw [violations_eq_append_set policy huid]
  cases Text.isBlank policy.uid with
  | true => exact (List.erase_cons_head _ (policy.set (.uid uid)).violations).symm
  | false =>
    refine (List.erase_of_not_mem fun hmem => ?_).symm
    have hblank : Text.isBlank (policy.set (.uid uid)).uid = true :=
      exists_missingUid_iff.mp ⟨_, hmem, rfl⟩
    rw [set, huid] at hblank
    cases hblank

end OdrlPolicy

namespace Policy

variable {policy : Policy}

theorem exists_missingUid_iff :
    (∃ violation ∈ policy.violations, violation.code = .missingUid) ↔
      policy.family = .odrl ∧ policy.ownKey? = none := by
  cases policy with
  | odrl policy =>
    rw [violations, OdrlPolicy.exists_missingUid_iff, ownKey?]
    cases Text.isBlank policy.uid <;> simp [family]
  | generic policy =>
    simp only [violations, family, reduceCtorEq, false_and, iff_false]
    rintro ⟨violation, hmem, hcode⟩
    cases GenericPolicy.unmet_of_mem_violations hmem <;> cases hcode

theorem code_ne_missingUid {key : PolicyKey} (h : policy.ownKey? = some key) :
    ∀ violation ∈ policy.violations, violation.code ≠ .missingUid := by
  intro violation hmem hcode
  obtain ⟨-, hnone⟩ := exists_missingUid_iff.mp ⟨violation, hmem, hcode⟩
  rw [h] at hnone
  cases hnone

theorem violations_of_withKey {key : PolicyKey} (h : (policy.withKey key).ownKey? = some key) :
    (policy.withKey key).violations =
      policy.violations.erase ⟨.missingUid, .policy, "uid"⟩ := by
  cases policy with
  | odrl policy =>
    refine OdrlPolicy.violations_set_uid ?_
    simp only [withKey, ownKey?, OdrlPolicy.set] at h
    cases hblank : Text.isBlank key.text with
    | true =>
      rw [if_pos hblank] at h
      cases h
    | false => rfl
  | generic policy =>
    -- nothing is required of an id, so that the list stays as it is
    refine (List.erase_of_not_mem fun hmem => ?_).symm
    obtain ⟨hfamily, -⟩ := exists_missingUid_iff.mp ⟨_, hmem, rfl⟩
    cases hfamily

end Policy

namespace Store

variable {store : Store} {keyPrefix : String} {draws : List Uuid} {policy : Policy}
  {assigned : Assigned} {next : Option UInt64}

theorem isGenerated_iff (h : store.Assigns keyPrefix draws policy assigned next) :
    assigned.isGenerated = true ↔ policy.ownKey? = none := by
  cases h with
  | own hkey _ => simp [hkey]
  | drawn hkey _ => simp [hkey]
  | counted hkey _ => simp [hkey]

theorem violations_of_assigns (h : store.Assigns keyPrefix draws policy assigned next) :
    assigned.snapshot.violations =
      policy.violations.erase ⟨.missingUid, .policy, "uid"⟩ := by
  have hkey := ownKey?_of_assigns h
  rw [snapshot_of_assigns h] at hkey ⊢
  exact Policy.violations_of_withKey hkey

theorem saves_keep_validity (h : store.Reachable) :
    (∀ keyPrefix policy now draws assigned after,
      store.save keyPrefix policy now draws = (.ok assigned, after) →
        ∃ entry, after.list none = store.list none ++ [entry] ∧
          entry.policy.violations =
            policy.violations.erase ⟨.missingUid, .policy, "uid"⟩ ∧
          (policy.family = .odrl →
            ((∃ violation ∈ policy.violations, violation.code = .missingUid) ↔
              assigned.isGenerated = true))) ∧
    (∀ entry ∈ store.list none, ∀ violation ∈ entry.policy.violations,
      violation.code ≠ .missingUid) ∧
    (∀ policy : Policy, policy.family = .odrl →
      ((∃ violation ∈ policy.violations, violation.code = .missingUid) ↔
        policy.ownKey? = none)) := by
  have huid (policy : Policy) (hfamily : policy.family = .odrl) :
      (∃ violation ∈ policy.violations, violation.code = .missingUid) ↔ policy.ownKey? = none := by
    rw [Policy.exists_missingUid_iff, and_iff_right hfamily]
  refine ⟨?_, ?_, huid⟩
  · intro keyPrefix policy now draws assigned after hsave
    obtain ⟨next, hassigns, rfl⟩ := assigns_of_save hsave
    refine ⟨_, entries_append, violations_of_assigns hassigns, ?_⟩
    intro hfamily
    rw [huid policy hfamily, isGenerated_iff hassigns]
  · intro entry hentry
    exact Policy.code_ne_missingUid (h.keyed.ownKey entry hentry)

theorem saves_keep_validity_of_blank_prefix :
    ∃ assigned after,
      empty.save " " (.odrl ((OdrlPolicy.new .offer).set (.uid "\t"))) ⟨0, 0⟩ [.ofRandom 0 0] =
        (.ok assigned, after) ∧
      assigned.isGenerated = true ∧
      ∃ entry ∈ after.list none, entry.policy.violations =
        [⟨.missingAssigner, .policy, "assigner"⟩, ⟨.missingTarget, .policy, "target"⟩,
          ⟨.noRules, .policy, "rules"⟩] := by
  have hkey : (Policy.odrl ((OdrlPolicy.new .offer).set (.uid "\t"))).ownKey? = none := by decide
  obtain ⟨assigned, after, hsave⟩ := @save_of_free empty " " [.ofRandom 0 0] ⟨0, 0⟩ keyed_empty _
    hkey _ (List.mem_singleton_self _) (by simp [empty])
  obtain ⟨hsaves, -, huid⟩ := saves_keep_validity .empty
  obtain ⟨entry, hlist, hviolations, hgenerated⟩ := hsaves _ _ _ _ _ _ hsave
  refine ⟨assigned, after, hsave, ?_, entry, ?_, ?_⟩
  · exact (hgenerated rfl).mp ((huid _ rfl).mpr hkey)
  · simp [hlist]
  · rw [hviolations]
    decide

end Store

end RightsPolicy
