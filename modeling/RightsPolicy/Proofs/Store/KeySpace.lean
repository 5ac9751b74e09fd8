import RightsPolicy.Proofs.Store.Index

namespace RightsPolicy

namespace Store

inductive Reachable : Store → Prop where
  | empty : Reachable empty
  | save {store after : Store} {keyPrefix policy now draws assigned} (h : Reachable store)
      (hsave : store.save keyPrefix policy now draws = (.ok assigned, after)) : Reachable after

structure Keyed (store : Store) : Prop extends store.Indexed where
  ownKey : ∀ entry ∈ store.entries.toList, entry.policy.ownKey? = some entry.key
  family : ∀ a ∈ store.entries.toList, ∀ b ∈ store.entries.toList, a.key = b.key →
    a.policy.family = b.policy.family

theorem keyed_empty : Keyed empty where
  toIndexed := indexed_empty
  ownKey entry h := by simp [empty] at h
  family a h := by simp [empty] at h

variable {store : Store} {keyPrefix : String} {draws : List Uuid} {policy : Policy}
  {assigned : Assigned} {next : Option UInt64} {now : Instant}

theorem family_of_assigns (h : store.Keyed)
    (hassigns : store.Assigns keyPrefix draws policy assigned next) {entry : StoredPolicy}
    (hmem : entry ∈ store.entries.toList) (hkey : entry.key = assigned.key) :
    entry.policy.family = assigned.snapshot.family := by
  cases hassigns with
  | own _ hfamily =>
    obtain ⟨last, hlastMem, hlast, hlastKey⟩ := exists_latest h.toIndexed hmem
    rw [hkey] at hlast
    rw [h.family entry hmem last hlastMem hlastKey.symm, hfamily last hlast]
  | drawn _ hdraw =>
    have hfree := (freeDraw?_eq_some hdraw).1
    exact absurd hkey ((has_eq_false_iff h.toIndexed).mp hfree entry hmem)
  | counted _ hid =>
    have hfree := freeId?_eq_some hid
    exact absurd hkey ((has_eq_false_iff h.toIndexed).mp hfree entry hmem)

theorem keyed_append (h : store.Keyed)
    (hassigns : store.Assigns keyPrefix draws policy assigned next) :
    ((store.withCounter next).append assigned now).Keyed where
  toIndexed := indexed_append (h.toIndexed.withCounter next)
  ownKey entry hmem := by
    rw [entries_append, List.mem_append, List.mem_singleton] at hmem
    rcases hmem with hmem | rfl
    · exact h.ownKey entry hmem
    · exact ownKey?_of_assigns hassigns
  family a ha b hb hkey := by
    rw [entries_append, List.mem_append, List.mem_singleton] at ha hb
    rcases ha with ha | rfl <;> rcases hb with hb | rfl
    · exact h.family a ha b hb hkey
    · exact family_of_assigns h hassigns ha hkey
    · exact (family_of_assigns h hassigns hb hkey.symm).symm
    · rfl

theorem Reachable.keyed (h : store.Reachable) : store.Keyed := by
  induction h with
  | empty => exact keyed_empty
  | save _ hsave ih =>
    obtain ⟨next, hassigns, rfl⟩ := assigns_of_save hsave
    exact keyed_append ih hassigns

theorem save_of_free (h : store.Keyed) {policy : OdrlPolicy}
    (hkey : (Policy.odrl policy).ownKey? = none) {uuid : Uuid} (hmem : uuid ∈ draws)
    (hfree : ∀ entry ∈ store.entries.toList, entry.key ≠ PolicyKey.generated keyPrefix uuid) :
    ∃ assigned after, store.save keyPrefix (.odrl policy) now draws = (.ok assigned, after) := by
  have hhas := (has_eq_false_iff h.toIndexed).mpr hfree
  obtain ⟨key, rest, hdraw⟩ := freeDraw?_isSome hmem hhas
  have hassign : store.assign keyPrefix (.odrl policy) draws =
      (.ok ⟨key, .odrl (policy.set (.uid key.text)), true, rest⟩, store) := by
    simp only [assign, hkey, assignGenerated, hdraw]
  exact ⟨_, _, save_of_assign hassign⟩

theorem conflict?_eq_none (h : store.Indexed) {key : PolicyKey}
    (hfamily : ∀ entry ∈ store.list none, entry.key = key →
      entry.policy.family = policy.family) : store.conflict? policy key = none := by
  refine conflict?_eq_none_iff.mpr ?_
  intro entry hlatest
  obtain ⟨hmem, hkey⟩ := mem_of_latest? h hlatest
  exact hfamily entry hmem hkey

theorem exists_own (h : store.Reachable) (policy : Policy) {key : PolicyKey}
    (hkey : policy.ownKey? = some key)
    (hfamily : ∀ entry ∈ store.list none, entry.key = key → entry.policy.family = policy.family)
    (keyPrefix : String) (now : Instant) (draws : List Uuid) :
    ∃ after, store.save keyPrefix policy now draws = (.ok ⟨key, policy, false, draws⟩, after) ∧
      after.Reachable ∧ after.list none = store.list none ++ [⟨key, policy, now⟩] ∧
      after.nextGenericId = store.counterFor policy := by
  have hfree := conflict?_eq_none h.keyed.toIndexed hfamily
  have hsave := @save_of_assign _ _ _ _ _ _ now (assign_of_free hkey hfree keyPrefix draws)
  exact ⟨_, hsave, .save h hsave, entries_append, rfl⟩

theorem exists_counted (h : store.Reachable) (policy : GenericPolicy) (hid : policy.id = none)
    {id : UInt64} (hfree : store.freeId? = some id) (keyPrefix : String) (now : Instant)
    (draws : List Uuid) :
    ∃ after, store.save keyPrefix (.generic policy) now draws =
        (.ok ⟨.ofId id, .generic { policy with id := some id }, true, draws⟩, after) ∧
      after.Reachable ∧
      after.list none =
        store.list none ++ [⟨.ofId id, .generic { policy with id := some id }, now⟩] ∧
      after.nextGenericId = successor? id := by
  have hsave := @save_generic store keyPrefix draws now policy hid
  rw [hfree] at hsave
  exact ⟨_, hsave, .save h hsave, entries_append, rfl⟩

theorem exists_drawn (h : store.Reachable) (policy : OdrlPolicy)
    (hkey : (Policy.odrl policy).ownKey? = none) (keyPrefix : String) (uuid : Uuid)
    (hfree : ∀ entry ∈ store.list none, entry.key ≠ .generated keyPrefix uuid) (now : Instant)
    (rest : List Uuid) :
    let key := PolicyKey.generated keyPrefix uuid
    ∃ after, store.save keyPrefix (.odrl policy) now (uuid :: rest) =
        (.ok ⟨key, (Policy.odrl policy).withKey key, true, rest⟩, after) ∧
      after.Reachable ∧
      after.list none = store.list none ++ [⟨key, (Policy.odrl policy).withKey key, now⟩] ∧
      after.nextGenericId = store.nextGenericId := by
  intro key
  have hhas : store.has key = false := (has_eq_false_iff h.keyed.toIndexed).mpr hfree
  have hassign : store.assign keyPrefix (.odrl policy) (uuid :: rest) =
      (.ok ⟨key, (Policy.odrl policy).withKey key, true, rest⟩, store) := by
    simp only [assign, hkey, assignGenerated, freeDraw?, key, hhas]
    rfl
  have hsave := @save_of_assign _ _ _ _ _ _ now hassign
  exact ⟨_, hsave, .save h hsave, entries_append, rfl⟩

theorem exists_pair {a b : Policy} {keyA keyB : PolicyKey} (ha : a.ownKey? = some keyA)
    (hb : b.ownKey? = some keyB) (hne : keyA ≠ keyB) (keyPrefix : String) (now later : Instant) :
    ∃ one two, empty.save keyPrefix a now [] = (.ok ⟨keyA, a, false, []⟩, one) ∧
      one.save keyPrefix b later [] = (.ok ⟨keyB, b, false, []⟩, two) ∧ two.Reachable ∧
      two.list none = [⟨keyA, a, now⟩, ⟨keyB, b, later⟩] := by
  obtain ⟨one, hsaveA, hone, hlistOne, -⟩ :=
    exists_own .empty a ha (by simp) keyPrefix now []
  obtain ⟨two, hsaveB, htwo, hlistTwo, -⟩ :=
    exists_own hone b hb (by rw [hlistOne]; simp [hne]) keyPrefix later []
  rw [hlistOne] at hlistTwo
  exact ⟨one, two, hsaveA, hsaveB, htwo, hlistTwo⟩

theorem key_space_of_reachable (h : store.Reachable) :
    (∀ entry ∈ store.list none, entry.policy.ownKey? = some entry.key) ∧
    (∀ a ∈ store.list none, ∀ b ∈ store.list none, a.key = b.key →
      a.policy.family = b.policy.family) ∧
    (∀ keyPrefix policy now draws assigned after,
      store.save keyPrefix policy now draws = (.ok assigned, after) →
        after.list none = store.list none ++ [⟨assigned.key, assigned.snapshot, now⟩] ∧
        (∀ key, policy.ownKey? = some key → assigned.key = key ∧ assigned.snapshot = policy) ∧
        (policy.ownKey? = none → assigned.snapshot = policy.withKey assigned.key ∧
          ∀ entry ∈ store.list none, entry.key ≠ assigned.key)) ∧
    (∀ keyPrefix policy now draws, (Policy.odrl policy).ownKey? = none →
      (∃ uuid ∈ draws, ∀ entry ∈ store.list none,
        entry.key ≠ PolicyKey.generated keyPrefix uuid) →
      ∃ assigned after, store.save keyPrefix (.odrl policy) now draws = (.ok assigned, after)) := by
  have hkeyed := h.keyed
  refine ⟨hkeyed.ownKey, hkeyed.family, ?_, ?_⟩
  · intro keyPrefix policy now draws assigned after hsave
    obtain ⟨next, hassigns, rfl⟩ := assigns_of_save hsave
    refine ⟨entries_append, ?_, ?_⟩
    · intro key hkey
      exact own_of_assigns hassigns hkey
    · intro hkey
      have hfree := has_of_assigns hassigns hkey
      exact ⟨snapshot_of_assigns hassigns, (has_eq_false_iff hkeyed.toIndexed).mp hfree⟩
  · intro keyPrefix policy now draws hkey hdraw
    obtain ⟨uuid, hmem, hfree⟩ := hdraw
    exact save_of_free hkeyed hkey hmem hfree

end Store

namespace Policy

def offerOf (uid : String) : Policy :=
  .odrl { OdrlPolicy.new .offer with uid := uid }

def agreementOf (uid : String) : Policy :=
  .odrl { OdrlPolicy.new .agreement with uid := uid }

def accessOf (id : Option UInt64) : Policy :=
  .generic { GenericPolicy.new .access with id := id }

end Policy

namespace Store

def stock : List StoredPolicy :=
  let drawn := PolicyKey.generated "urn:uuid:" (.ofRandom 0 0)
  [⟨⟨"1"⟩, .offerOf "1", ⟨0, 0⟩⟩,
    ⟨⟨"2"⟩, .accessOf (some 2), ⟨1, 0⟩⟩,
    ⟨⟨"5"⟩, .accessOf (some 5), ⟨2, 0⟩⟩,
    ⟨drawn, .offerOf drawn.text, ⟨3, 0⟩⟩,
    ⟨⟨"1"⟩, .agreementOf "1", ⟨4, 0⟩⟩]

theorem exists_stock : ∃ store : Store, store.Reachable ∧ store.list none = stock := by
  obtain ⟨one, -, hone, hlistOne, hnext⟩ :=
    exists_own .empty (.offerOf "1") rfl (by simp) "urn:uuid:" ⟨0, 0⟩ []
  have hused : one.has (.ofId 1) = true := by
    rw [has_eq_true_iff hone.keyed.toIndexed, hlistOne]
    decide
  have hunused : one.has (.ofId 2) = false := by
    rw [← Bool.not_eq_true, has_eq_true_iff hone.keyed.toIndexed, hlistOne]
    decide
  have hfree : one.freeId? = some 2 := by
    rw [freeId?, hnext]
    exact (leastFree?_of_used hused rfl).trans (leastFree?_of_free hunused)
  obtain ⟨two, -, htwo, hlistTwo, -⟩ :=
    exists_counted hone (.new .access) rfl hfree "urn:uuid:" ⟨1, 0⟩ []
  rw [hlistOne] at hlistTwo
  obtain ⟨three, -, hthree, hlistThree, -⟩ :=
    exists_own htwo (.accessOf (some 5)) rfl (by rw [hlistTwo]; decide) "urn:uuid:" ⟨2, 0⟩ []
  rw [hlistTwo] at hlistThree
  obtain ⟨four, -, hfour, hlistFour, -⟩ :=
    exists_drawn hthree (.new .offer) rfl "urn:uuid:" (.ofRandom 0 0)
      (by rw [hlistThree]; decide) ⟨3, 0⟩ []
  rw [hlistThree] at hlistFour
  obtain ⟨five, -, hfive, hlistFive, -⟩ :=
    exists_own hfour (.agreementOf "1") rfl (by rw [hlistFour]; decide) "urn:uuid:" ⟨4, 0⟩ []
  rw [hlistFour] at hlistFive
  exact ⟨five, hfive, hlistFive⟩

theorem key_space_of_stock :
    ∃ store : Store, store.Reachable ∧ store.list none = stock ∧
      (∀ entry ∈ stock, entry.policy.ownKey? = some entry.key) ∧
      (∀ a ∈ stock, ∀ b ∈ stock, a.key = b.key → a.policy.family = b.policy.family) ∧
      (∃ assigned after,
        store.save "urn:uuid:" (.offerOf "1") ⟨5, 0⟩ [] = (.ok assigned, after) ∧
          after.list none = stock ++ [⟨⟨"1"⟩, .offerOf "1", ⟨5, 0⟩⟩]) ∧
      ∃ assigned after,
        store.save "urn:uuid:" (.offerOf " ") ⟨5, 0⟩ [.ofRandom 0 0, .ofRandom 0 1] =
            (.ok assigned, after) ∧
          after.list none = stock ++ [⟨assigned.key, .offerOf assigned.key.text, ⟨5, 0⟩⟩] ∧
          ∀ entry ∈ stock, entry.key ≠ assigned.key := by
  obtain ⟨store, hstore, hlist⟩ := exists_stock
  obtain ⟨hown, hfamily, hsaves, hdraws⟩ := key_space_of_reachable hstore
  simp only [hlist] at hown hfamily hsaves hdraws
  refine ⟨store, hstore, hlist, hown, hfamily, ?_, ?_⟩
  · obtain ⟨after, hsave, -⟩ := exists_own hstore (.offerOf "1") rfl (by rw [hlist]; decide)
      "urn:uuid:" ⟨5, 0⟩ []
    exact ⟨_, after, hsave, (hsaves _ _ _ _ _ _ hsave).1⟩
  · obtain ⟨assigned, after, hsave⟩ := hdraws "urn:uuid:" { OdrlPolicy.new .offer with uid := " " }
      ⟨5, 0⟩ [.ofRandom 0 0, .ofRandom 0 1] (by decide) ⟨.ofRandom 0 1, by decide, by decide⟩
    obtain ⟨hafter, -, hgenerated⟩ := hsaves _ _ _ _ _ _ hsave
    obtain ⟨hsnapshot, hfresh⟩ := hgenerated (by decide)
    rw [hsnapshot] at hafter
    exact ⟨assigned, after, hsave, hafter, hfresh⟩

end Store

end RightsPolicy
