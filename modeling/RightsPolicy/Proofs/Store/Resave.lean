import RightsPolicy.Proofs.Document.Settled
import RightsPolicy.Proofs.Store.Counter

namespace RightsPolicy

structure Policy.SameIdentity (a b : Policy) : Prop where
  family : a.family = b.family
  ownKey? : a.ownKey? = b.ownKey?
  genericId? : a.genericId? = b.genericId?

theorem Policy.sameIdentity_import (policy : Policy) (profile : Option String) :
    (policy.settled.renumbered.orProfile profile).SameIdentity policy := by
  cases policy <;> exact ⟨rfl, rfl, rfl⟩

namespace Store

def PutsBack (store : Store) (key : PolicyKey) (policy : Policy) : Prop :=
  ∀ keyPrefix now draws, ∃ assigned after,
    store.save keyPrefix policy now draws = (.ok assigned, after) ∧
      assigned.key = key ∧ assigned.isGenerated = false ∧ assigned.draws = draws ∧
      after.list none = store.list none ++ [⟨key, policy, now⟩] ∧
      after.nextGenericId = store.nextGenericId ∧
      ∀ other, other ≠ key → after.load other = store.load other

variable {store : Store} {policy : Policy} {entry : StoredPolicy}

theorem counterAfter_eq_self {next : Option UInt64} {m : Nat} (h : next.map UInt64.toNat = above m)
    {id : UInt64} (hid : id.toNat ≤ m) : counterAfter next id = next := by
  have hafter := map_toNat_counterAfter h id
  rw [Nat.max_eq_left hid, ← h] at hafter
  exact Option.map_injective (fun _ _ => UInt64.toNat_inj.mp) hafter

theorem counterFor_eq_self (h : store.Counted)
    (hid : ∀ id, policy.genericId? = some id → id.toNat ≤ store.greatestId) :
    store.counterFor policy = store.nextGenericId := by
  cases policy with
  | odrl policy => rfl
  | generic policy =>
    obtain ⟨id⟩ := policy
    cases id with
    | none => rfl
    | some id => exact counterAfter_eq_self h (hid id rfl)

theorem load_append (h : store.Indexed) {assigned : Assigned} {now : Instant} {key : PolicyKey}
    (hne : key ≠ assigned.key) : (store.append assigned now).load key = store.load key := by
  rw [load, latest?_append h, if_neg (Ne.symm hne), ← load]

theorem putsBack_of_sameIdentity (h : store.Reachable) (hmem : entry ∈ store.list none)
    (hsame : policy.SameIdentity entry.policy) : store.PutsBack entry.key policy := by
  intro keyPrefix now draws
  have hkeyed := h.keyed
  have hown : policy.ownKey? = some entry.key := hsame.ownKey?.trans (hkeyed.ownKey entry hmem)
  have hcounter : store.counterFor policy = store.nextGenericId := by
    apply counterFor_eq_self h.counted
    intro id hid
    exact le_greatestId hmem (hsame.genericId?.symm.trans hid)
  have hfamily : ∀ other ∈ store.list none, other.key = entry.key →
      other.policy.family = policy.family := by
    intro other hother hkey
    rw [hsame.family]
    exact hkeyed.family other hother entry hmem hkey
  have hfree := conflict?_eq_none hkeyed.toIndexed hfamily
  have hassign := assign_of_free hown hfree keyPrefix draws
  rw [hcounter] at hassign
  refine ⟨_, _, save_of_assign hassign, rfl, rfl, rfl, entries_append, rfl, ?_⟩
  intro other hother
  exact load_append (hkeyed.toIndexed.withCounter _) hother

theorem putsBack_of_mem (h : store.Reachable) (hmem : entry ∈ store.list none) :
    store.PutsBack entry.key entry.policy ∧
      (entry.policy.IsRepresentable → ∀ config pretty, ∃ document policy,
        PolicyDocument.ofText ((entry.policy.toDocument config).render pretty) = .ok document ∧
          document.toPolicy = .ok policy ∧ store.PutsBack entry.key policy) := by
  refine ⟨putsBack_of_sameIdentity h hmem ⟨rfl, rfl, rfl⟩, ?_⟩
  intro hrepresentable config pretty
  refine ⟨_, _, Policy.ofText_render hrepresentable config pretty,
    Policy.toPolicy_toDocument _ config, ?_⟩
  exact putsBack_of_sameIdentity h hmem (Policy.sameIdentity_import _ _)

def lastPolicy : Policy :=
  .generic
    { GenericPolicy.new .access with
      id := some 18446744073709551615
      validTo := some ⟨1483228770, 1500000000⟩ }

def lastAssigned : Assigned :=
  ⟨PolicyKey.ofId 18446744073709551615, lastPolicy, false, []⟩

theorem putsBack_of_exhausted :
    let store := (empty.withCounter none).append lastAssigned ⟨0, 0⟩
    store.nextGenericId = none ∧ store.PutsBack lastAssigned.key lastPolicy ∧
      ∃ document policy,
        PolicyDocument.ofText ((lastPolicy.toDocument default).render true) = .ok document ∧
          document.toPolicy = .ok policy ∧ store.PutsBack lastAssigned.key policy := by
  intro store
  have hfree : empty.conflict? lastPolicy lastAssigned.key = none :=
    conflict?_eq_none indexed_empty (by simp)
  have hstore : store.Reachable :=
    .save .empty (save_of_assign (assign_of_free rfl hfree "urn:uuid:" []))
  have hmem : ⟨lastAssigned.key, lastPolicy, ⟨0, 0⟩⟩ ∈ store.list none := by
    simp [store, list, lastAssigned]
  obtain ⟨hback, hread⟩ := putsBack_of_mem hstore hmem
  have hrepresentable : lastPolicy.IsRepresentable := by
    constructor
    · intro t ht
      cases ht
    · intro t ht
      cases ht
      constructor <;> decide
  exact ⟨rfl, hback, hread hrepresentable default true⟩

end Store

end RightsPolicy
