import RightsPolicy.Proofs.Text.Digits
import RightsPolicy.Store.Basic

namespace RightsPolicy

namespace PolicyKey

def id (key : PolicyKey) : UInt64 :=
  UInt64.ofNat (Text.digitsValue key.text.toList)

@[simp]
theorem id_ofId (id : UInt64) : (ofId id).id = id := by
  rw [PolicyKey.id, ofId, Text.digitsValue_repr, UInt64.ofNat_toNat]

theorem toNat_ne {a b : UInt64} (h : ofId a ≠ ofId b) : a.toNat ≠ b.toNat := by
  intro hsame
  rw [UInt64.toNat_inj.mp hsame] at h
  exact h rfl

end PolicyKey

namespace Uuid

theorem hyphen_mem_chars (uuid : Uuid) : '-' ∈ uuid.chars := by
  simp [chars]

end Uuid

namespace PolicyKey

theorem generated_not_blank (keyPrefix : String) (uuid : Uuid) :
    Text.isBlank (generated keyPrefix uuid).text = false := by
  rw [Text.isBlank, List.all_eq_false]
  refine ⟨'-', ?_, by decide⟩
  simp [generated, Uuid.text, Uuid.hyphen_mem_chars]

end PolicyKey

namespace Policy

def withKey (policy : Policy) (key : PolicyKey) : Policy :=
  match policy with
  | .odrl policy => .odrl (policy.set (.uid key.text))
  | .generic policy => .generic (policy.set (.id (some key.id)))

theorem withKey_ownKey {policy : Policy} {key : PolicyKey} (h : policy.ownKey? = some key) :
    policy.withKey key = policy := by
  cases policy with
  | odrl policy =>
    simp only [ownKey?] at h
    split at h
    · cases h
    · cases h
      rfl
  | generic policy =>
    simp only [ownKey?, Option.map_eq_some_iff] at h
    obtain ⟨id, hid, rfl⟩ := h
    simp only [withKey, PolicyKey.id_ofId, ← hid]
    rfl

end Policy

namespace Store

inductive Assigns (store : Store) (keyPrefix : String) (draws : List Uuid) :
    Policy → Assigned → Option UInt64 → Prop where
  | own {policy key} (hkey : policy.ownKey? = some key)
      (hfamily : ∀ entry, store.latest? key = some entry → entry.policy.family = policy.family) :
      Assigns store keyPrefix draws policy ⟨key, policy, false, draws⟩ (store.counterFor policy)
  | drawn {policy : OdrlPolicy} {key rest} (hkey : (Policy.odrl policy).ownKey? = none)
      (hdraw : store.freeDraw? keyPrefix draws = some (key, rest)) :
      Assigns store keyPrefix draws (.odrl policy)
        ⟨key, (Policy.odrl policy).withKey key, true, rest⟩ store.nextGenericId
  | counted {policy : GenericPolicy} {id} (hkey : (Policy.generic policy).ownKey? = none)
      (hfree : store.freeId? = some id) :
      Assigns store keyPrefix draws (.generic policy)
        ⟨PolicyKey.ofId id, (Policy.generic policy).withKey (PolicyKey.ofId id), true, draws⟩
        (successor? id)

variable {store after : Store} {keyPrefix : String} {draws : List Uuid} {policy : Policy}
  {assigned : Assigned} {next : Option UInt64} {cause : StoreError} {now : Instant}

theorem conflict?_eq_none_iff {key : PolicyKey} : store.conflict? policy key = none ↔
    ∀ entry, store.latest? key = some entry → entry.policy.family = policy.family := by
  unfold conflict?
  cases store.latest? key with
  | none => simp
  | some entry => simp

theorem conflict?_eq_some_iff {key : PolicyKey} : store.conflict? policy key = some cause ↔
    ∃ entry, store.latest? key = some entry ∧ entry.policy.family ≠ policy.family ∧
      cause = .keyConflict key (Vocabulary.term entry.policy.family) := by
  unfold conflict?
  cases store.latest? key with
  | none => simp
  | some entry =>
    by_cases h : entry.policy.family = policy.family
    · simp [h]
    · simp [h, @eq_comm _ cause]

theorem assign_of_ownKey {key : PolicyKey} (hkey : policy.ownKey? = some key)
    (keyPrefix : String) (draws : List Uuid) :
    store.assign keyPrefix policy draws = store.assignOwn policy key draws := by
  rw [assign, hkey]

theorem assign_of_free {key : PolicyKey} (hkey : policy.ownKey? = some key)
    (hfree : store.conflict? policy key = none) (keyPrefix : String) (draws : List Uuid) :
    store.assign keyPrefix policy draws =
      (.ok ⟨key, policy, false, draws⟩, store.withCounter (store.counterFor policy)) := by
  rw [assign_of_ownKey hkey, assignOwn, hfree]

theorem assigns_of_assign (h : store.assign keyPrefix policy draws = (.ok assigned, after)) :
    ∃ next, store.Assigns keyPrefix draws policy assigned next ∧
      after = store.withCounter next := by
  unfold assign at h
  split at h
  · rename_i key hkey
    unfold assignOwn at h
    split at h
    · cases h
    · rename_i hfree
      cases h
      exact ⟨_, .own hkey (conflict?_eq_none_iff.mp hfree), rfl⟩
  · rename_i hkey
    cases policy with
    | odrl policy =>
      unfold assignGenerated at h
      dsimp only at h
      split at h
      · rename_i key rest hdraw
        cases h
        exact ⟨_, .drawn hkey hdraw, rfl⟩
      · cases h
    | generic policy =>
      simp only [assignGenerated, takeId] at h
      cases hfree : store.freeId? with
      | none =>
        rw [hfree] at h
        cases h
      | some id =>
        rw [hfree] at h
        cases h
        have hcounted := @Assigns.counted store keyPrefix draws policy id hkey hfree
        rw [Policy.withKey, PolicyKey.id_ofId] at hcounted
        exact ⟨_, hcounted, rfl⟩

theorem save_of_assign (h : store.assign keyPrefix policy draws = (.ok assigned, after)) :
    store.save keyPrefix policy now draws = (.ok assigned, after.append assigned now) := by
  rw [save, h]

theorem assigns_of_save (h : store.save keyPrefix policy now draws = (.ok assigned, after)) :
    ∃ next, store.Assigns keyPrefix draws policy assigned next ∧
      after = (store.withCounter next).append assigned now := by
  unfold save at h
  split at h
  · rename_i found counted hassign
    cases h
    obtain ⟨next, hassigns, rfl⟩ := assigns_of_assign hassign
    exact ⟨next, hassigns, rfl⟩
  · cases h

theorem save_generic {policy : GenericPolicy} (hid : policy.id = none) :
    store.save keyPrefix (.generic policy) now draws =
      match store.freeId? with
      | some id =>
        let assigned : Assigned :=
          ⟨PolicyKey.ofId id, .generic { policy with id := some id }, true, draws⟩
        (.ok assigned, (store.withCounter (successor? id)).append assigned now)
      | none => (.error .idsExhausted, store) := by
  have hkey : (Policy.generic policy).ownKey? = none := by simp [Policy.ownKey?, hid]
  simp only [save, assign, hkey, assignGenerated, takeId]
  cases store.freeId? <;> rfl

theorem takeId_of_error (h : store.takeId.1 = .error cause) : store.takeId.2 = store := by
  unfold takeId at h ⊢
  split at h
  · cases h
  · rfl

theorem assign_of_error (h : (store.assign keyPrefix policy draws).1 = .error cause) :
    (store.assign keyPrefix policy draws).2 = store := by
  unfold assign at h ⊢
  split at h
  · unfold assignOwn at h ⊢
    split at h
    · rfl
    · cases h
  · cases policy with
    | odrl policy =>
      simp only [assignGenerated] at h ⊢
      split at h
      · cases h
      · rfl
    | generic policy =>
      simp only [assignGenerated] at h ⊢
      cases hid : store.takeId with
      | mk outcome after =>
        rw [hid] at h
        cases outcome with
        | ok id => cases h
        | error cause =>
          have hkept := takeId_of_error (congrArg Prod.fst hid)
          rwa [hid] at hkept

theorem save_eq_error_iff : (store.save keyPrefix policy now draws).1 = .error cause ↔
    (store.assign keyPrefix policy draws).1 = .error cause := by
  unfold save
  cases store.assign keyPrefix policy draws with
  | mk outcome after => cases outcome <;> rfl

theorem save_of_error (h : (store.save keyPrefix policy now draws).1 = .error cause) :
    (store.save keyPrefix policy now draws).2 = store := by
  unfold save at h ⊢
  split at h
  · cases h
  · rename_i found after hassign
    have hkept := assign_of_error (congrArg Prod.fst hassign)
    rwa [hassign] at hkept

theorem snapshot_of_assigns (h : store.Assigns keyPrefix draws policy assigned next) :
    assigned.snapshot = policy.withKey assigned.key := by
  cases h with
  | own hkey _ => exact (Policy.withKey_ownKey hkey).symm
  | drawn => rfl
  | counted => rfl

theorem own_of_assigns (h : store.Assigns keyPrefix draws policy assigned next) {key : PolicyKey}
    (hkey : policy.ownKey? = some key) : assigned.key = key ∧ assigned.snapshot = policy := by
  cases h with
  | own hown _ =>
    rw [hown] at hkey
    cases hkey
    exact ⟨rfl, rfl⟩
  | drawn hnone _ =>
    rw [hnone] at hkey
    cases hkey
  | counted hnone _ =>
    rw [hnone] at hkey
    cases hkey

theorem freeDraw?_eq_some {key : PolicyKey} {rest : List Uuid}
    (h : store.freeDraw? keyPrefix draws = some (key, rest)) :
    store.has key = false ∧ ∃ uuid ∈ draws, key = PolicyKey.generated keyPrefix uuid := by
  induction draws with
  | nil => cases h
  | cons uuid draws ih =>
    simp only [freeDraw?] at h
    split at h
    · obtain ⟨hfree, found, hmem, hkey⟩ := ih h
      exact ⟨hfree, found, List.mem_cons_of_mem _ hmem, hkey⟩
    · rename_i hfree
      cases h
      exact ⟨by simpa using hfree, uuid, List.mem_cons_self, rfl⟩

theorem freeDraw?_isSome {uuid : Uuid} (hmem : uuid ∈ draws)
    (hfree : store.has (PolicyKey.generated keyPrefix uuid) = false) :
    ∃ key rest, store.freeDraw? keyPrefix draws = some (key, rest) := by
  induction draws with
  | nil => cases hmem
  | cons head draws ih =>
    simp only [freeDraw?]
    split
    · rename_i hused
      refine ih ((List.mem_cons.mp hmem).resolve_left ?_)
      rintro rfl
      rw [hfree] at hused
      cases hused
    · exact ⟨_, _, rfl⟩

theorem leastFree?_eq_some {isUsed : UInt64 → Bool} {start id : UInt64}
    (h : leastFree? isUsed start = some id) : isUsed id = false := by
  fun_induction leastFree? isUsed start with
  | case1 start hused next hnext ih => exact ih h
  | case2 => cases h
  | case3 start hfree =>
    cases h
    simpa using hfree

theorem leastFree?_of_free {isUsed : UInt64 → Bool} {start : UInt64}
    (hfree : isUsed start = false) : leastFree? isUsed start = some start := by
  rw [leastFree?, hfree]
  rfl

theorem leastFree?_of_used {isUsed : UInt64 → Bool} {start next : UInt64}
    (hused : isUsed start = true) (hnext : successor? start = some next) :
    leastFree? isUsed start = leastFree? isUsed next := by
  rw [leastFree?, if_pos hused]
  split
  · rename_i found hfound
    rw [hnext] at hfound
    cases hfound
    rfl
  · rename_i hnone
    rw [hnext] at hnone
    cases hnone

theorem freeId?_eq_some {id : UInt64} (h : store.freeId? = some id) :
    store.has (PolicyKey.ofId id) = false := by
  obtain ⟨start, _, hleast⟩ := Option.bind_eq_some_iff.mp h
  exact leastFree?_eq_some hleast

theorem has_of_assigns (h : store.Assigns keyPrefix draws policy assigned next)
    (hkey : policy.ownKey? = none) : store.has assigned.key = false := by
  cases h with
  | own hown _ =>
    rw [hown] at hkey
    cases hkey
  | drawn _ hdraw => exact (freeDraw?_eq_some hdraw).1
  | counted _ hfree => exact freeId?_eq_some hfree

theorem ownKey?_of_assigns (h : store.Assigns keyPrefix draws policy assigned next) :
    assigned.snapshot.ownKey? = some assigned.key := by
  cases h with
  | own hkey _ => exact hkey
  | drawn _ hdraw =>
    obtain ⟨_, uuid, _, rfl⟩ := freeDraw?_eq_some hdraw
    have hblank := PolicyKey.generated_not_blank keyPrefix uuid
    simp [Policy.withKey, Policy.ownKey?, OdrlPolicy.set, hblank]
  | counted => simp [Policy.withKey, Policy.ownKey?, GenericPolicy.set]

end Store

end RightsPolicy
