import RightsPolicy.Proofs.Store.History

namespace RightsPolicy

def Policy.genericId? : Policy → Option UInt64
  | .odrl _ => none
  | .generic policy => policy.id

theorem Policy.genericId?_withKey (policy : GenericPolicy) (id : UInt64) :
    ((Policy.generic policy).withKey (PolicyKey.ofId id)).genericId? = some id := by
  simp [Policy.withKey, Policy.genericId?, GenericPolicy.set]

namespace Store

theorem le_iff_of_successor? {id next n : UInt64} (h : successor? id = some next) :
    id ≤ n ↔ n = id ∨ next ≤ n := by
  have hnext := toNat_of_successor? h
  rw [UInt64.le_iff_toNat_le, UInt64.le_iff_toNat_le, ← UInt64.toNat_inj, hnext]
  omega

theorem eq_of_successor?_eq_none {id n : UInt64} (h : successor? id = none) (hle : id ≤ n) :
    n = id := by
  have hlast : ¬ id.toNat + 1 < UInt64.size := by
    intro hlt
    rw [successor?, if_pos hlt] at h
    cases h
  have hlt : n.toNat < UInt64.size := n.toNat_lt_size
  rw [UInt64.le_iff_toNat_le] at hle
  rw [← UInt64.toNat_inj]
  omega

variable {isUsed : UInt64 → Bool} {start id : UInt64}

theorem leastFree?_eq_none (h : leastFree? isUsed start = none) :
    ∀ n, start ≤ n → isUsed n = true := by
  fun_induction leastFree? isUsed start with
  | case1 start hused next hnext ih =>
    intro n hn
    rcases (le_iff_of_successor? hnext).mp hn with rfl | hn
    · exact hused
    · exact ih h n hn
  | case2 start hused hlast =>
    intro n hn
    rw [eq_of_successor?_eq_none hlast hn]
    exact hused
  | case3 => cases h

theorem leastFree?_least (h : leastFree? isUsed start = some id) :
    start ≤ id ∧ ∀ n, start ≤ n → isUsed n = false → id ≤ n := by
  fun_induction leastFree? isUsed start with
  | case1 start hused next hnext ih =>
    obtain ⟨hle, hleast⟩ := ih h
    refine ⟨(le_iff_of_successor? hnext).mpr (.inr hle), ?_⟩
    intro n hn hfree
    rcases (le_iff_of_successor? hnext).mp hn with rfl | hn
    · rw [hused] at hfree
      cases hfree
    · exact hleast n hn hfree
  | case2 => cases h
  | case3 start hfree =>
    cases h
    exact ⟨UInt64.le_refl _, fun n hn _ => hn⟩

def greatestId (store : Store) : Nat :=
  (store.entries.toList.filterMap fun entry =>
    entry.policy.genericId?.map UInt64.toNat).max?.getD 0

def IsFreeAbove (store : Store) (id : UInt64) : Prop :=
  store.greatestId < id.toNat ∧ ∀ entry ∈ store.list none, entry.key ≠ PolicyKey.ofId id

def IsLeastFreeAbove (store : Store) (id : UInt64) : Prop :=
  store.IsFreeAbove id ∧ ∀ n, store.IsFreeAbove n → id ≤ n

def above (m : Nat) : Option Nat :=
  if m = UInt64.size - 1 then none else some (m + 1)

def Counted (store : Store) : Prop :=
  store.nextGenericId.map UInt64.toNat = above store.greatestId

theorem above_eq_none_iff {m : Nat} : above m = none ↔ m = UInt64.size - 1 := by
  simp [above]

theorem above_eq_some_iff {m n : Nat} : above m = some n ↔ m ≠ UInt64.size - 1 ∧ n = m + 1 := by
  simp [above, eq_comm]

theorem map_toNat_successor? (id : UInt64) :
    (successor? id).map UInt64.toNat = above id.toNat := by
  have hid := id.toNat_lt_size
  cases h : successor? id with
  | none =>
    have hlast : UInt64.ofNat (UInt64.size - 1) = id := by
      refine eq_of_successor?_eq_none h ?_
      rw [UInt64.le_iff_toNat_le]
      exact Nat.le_sub_one_of_lt hid
    rw [← hlast]
    rfl
  | some next =>
    have hnext := toNat_of_successor? h
    have hlt := next.toNat_lt_size
    exact (above_eq_some_iff.mpr ⟨by omega, hnext⟩).symm

theorem map_toNat_counterAfter {next : Option UInt64} {m : Nat}
    (h : next.map UInt64.toNat = above m) (id : UInt64) :
    (counterAfter next id).map UInt64.toNat = above (max m id.toNat) := by
  have hid := id.toNat_lt_size
  have hafter := map_toNat_successor? id
  cases next with
  | none =>
    have hm := above_eq_none_iff.mp h.symm
    exact (above_eq_none_iff.mpr (by omega)).symm
  | some next =>
    have hlt := next.toNat_lt_size
    obtain ⟨hm, hnext⟩ := above_eq_some_iff.mp h.symm
    cases hsucc : successor? id with
    | none =>
      rw [hsucc] at hafter
      have hlast := above_eq_none_iff.mp hafter.symm
      simp only [counterAfter, hsucc]
      exact (above_eq_none_iff.mpr (by omega)).symm
    | some after =>
      rw [hsucc] at hafter
      obtain ⟨hlast, hafter⟩ := above_eq_some_iff.mp hafter.symm
      -- the counter moves past the id, but never back
      have hmax : max next after = if next ≤ after then after else next := rfl
      simp only [counterAfter, hsucc, hmax, UInt64.le_iff_toNat_le]
      refine (above_eq_some_iff.mpr ⟨by omega, ?_⟩).symm
      split <;> omega

variable {store : Store} {keyPrefix : String} {draws : List Uuid} {policy : Policy}
  {assigned : Assigned} {next : Option UInt64} {now : Instant}

theorem greatestId_append : (store.append assigned now).greatestId =
    max store.greatestId ((assigned.snapshot.genericId?.map UInt64.toNat).getD 0) := by
  have hfold (ids : List Nat) : ids.max?.getD 0 = ids.foldl max 0 := by
    rw [List.foldl_max, Nat.zero_max]
  rw [greatestId, entries_append, List.filterMap_append, hfold, List.foldl_append, ← hfold]
  cases h : assigned.snapshot.genericId? <;> simp [h, greatestId]

theorem le_greatestId {entry : StoredPolicy} {id : UInt64} (hmem : entry ∈ store.list none)
    (hid : entry.policy.genericId? = some id) : id.toNat ≤ store.greatestId := by
  refine List.le_max?_getD_of_mem (List.mem_filterMap.mpr ⟨entry, hmem, ?_⟩)
  rw [hid]
  rfl

theorem isFreeAbove_iff (hindexed : store.Indexed) (hcounted : store.Counted) {id : UInt64} :
    store.IsFreeAbove id ↔ ∃ start, store.nextGenericId = some start ∧ start ≤ id ∧
      store.has (PolicyKey.ofId id) = false := by
  have hlt := id.toNat_lt_size
  have hfree := @has_eq_false_iff store hindexed (PolicyKey.ofId id)
  unfold Counted at hcounted
  cases hnext : store.nextGenericId with
  | none =>
    rw [hnext] at hcounted
    have hlast := above_eq_none_iff.mp hcounted.symm
    constructor
    · rintro ⟨habove, _⟩
      omega
    · rintro ⟨start, hstart, _⟩
      cases hstart
  | some start =>
    rw [hnext] at hcounted
    obtain ⟨_, hstart⟩ := above_eq_some_iff.mp hcounted.symm
    simp only [Option.some.injEq, exists_eq_left', hfree, UInt64.le_iff_toNat_le, IsFreeAbove,
      hstart, Nat.succ_le_iff]
    rfl

theorem freeId?_eq_none_iff (hindexed : store.Indexed) (hcounted : store.Counted) :
    store.freeId? = none ↔ ∀ id, ¬ store.IsFreeAbove id := by
  simp only [isFreeAbove_iff hindexed hcounted, freeId?, Option.bind_eq_none_iff]
  constructor
  · rintro hnone id ⟨start, hstart, hle, hfree⟩
    have hused := leastFree?_eq_none (hnone start hstart) id hle
    rw [hfree] at hused
    cases hused
  · intro hnone start hstart
    cases hleast : leastFree? (fun id => store.has (PolicyKey.ofId id)) start with
    | none => rfl
    | some id =>
      have hle := (leastFree?_least hleast).1
      exact absurd ⟨start, hstart, hle, leastFree?_eq_some hleast⟩ (hnone id)

theorem isLeast_of_freeId? (hindexed : store.Indexed) (hcounted : store.Counted) {id : UInt64}
    (h : store.freeId? = some id) : store.IsLeastFreeAbove id := by
  obtain ⟨start, hstart, hsearch⟩ := Option.bind_eq_some_iff.mp h
  obtain ⟨hle, hleast⟩ := leastFree?_least hsearch
  simp only [IsLeastFreeAbove, isFreeAbove_iff hindexed hcounted]
  refine ⟨⟨start, hstart, hle, leastFree?_eq_some hsearch⟩, ?_⟩
  rintro n ⟨start', hstart', hn, hfree⟩
  rw [hstart] at hstart'
  cases hstart'
  exact hleast n hn hfree

theorem freeId?_eq_some_iff (hindexed : store.Indexed) (hcounted : store.Counted) {id : UInt64} :
    store.freeId? = some id ↔ store.IsLeastFreeAbove id := by
  constructor
  · exact isLeast_of_freeId? hindexed hcounted
  · rintro ⟨hfree, hleast⟩
    cases hfound : store.freeId? with
    | none => exact absurd hfree ((freeId?_eq_none_iff hindexed hcounted).mp hfound id)
    | some found =>
      obtain ⟨hfoundFree, hfoundLeast⟩ := isLeast_of_freeId? hindexed hcounted hfound
      rw [UInt64.le_antisymm (hfoundLeast id hfree) (hleast found hfoundFree)]

theorem counted_append (hindexed : store.Indexed) (hcounted : store.Counted)
    (hassigns : store.Assigns keyPrefix draws policy assigned next) :
    ((store.withCounter next).append assigned now).Counted := by
  have hgreatest : (store.withCounter next).greatestId = store.greatestId := rfl
  unfold Counted at hcounted ⊢
  rw [greatestId_append, hgreatest]
  cases hassigns with
  | @own policy key hkey _ =>
    cases policy with
    | odrl policy =>
      -- an ODRL policy has no id and leaves the counter where it is
      simpa [append, counterFor, Policy.genericId?] using hcounted
    | generic policy =>
      obtain ⟨id, hid, _⟩ := Option.map_eq_some_iff.mp hkey
      have hcounter : store.counterFor (.generic policy) =
          counterAfter store.nextGenericId id := by
        cases policy
        cases hid
        rfl
      simpa [append, hcounter, Policy.genericId?, hid] using map_toNat_counterAfter hcounted id
  | drawn => simpa [append, Policy.withKey, Policy.genericId?] using hcounted
  | @counted policy id _ hfree =>
    have habove := (isLeast_of_freeId? hindexed hcounted hfree).1.1
    have hmax : max store.greatestId id.toNat = id.toNat := Nat.max_eq_right (Nat.le_of_lt habove)
    simp [append, Policy.genericId?_withKey, hmax, map_toNat_successor?]

theorem Reachable.counted (h : store.Reachable) : store.Counted := by
  induction h with
  | empty => rfl
  | save hstore hsave ih =>
    obtain ⟨next, hassigns, rfl⟩ := assigns_of_save hsave
    exact counted_append hstore.keyed.toIndexed ih hassigns

end Store

namespace SharedStore

def generatedId? : Call → Answer → Option UInt64
  | .save _ (.generic policy) (some _) _, .saved key =>
    if policy.id = none then some key.id else none
  | _, _ => none

def generatedIds (history : List (Call × Answer)) : List UInt64 :=
  history.filterMap fun step => generatedId? step.1 step.2

theorem generatedId?_eq_none {call : Call} {answer : Answer} (h : snapshot? call answer = none) :
    generatedId? call answer = none := by
  unfold generatedId?
  split
  · cases h
  · rfl

theorem generatedId?_eq_none_of_ne_saved {call : Call} {answer : Answer}
    (h : ∀ key, answer ≠ .saved key) : generatedId? call answer = none := by
  unfold generatedId?
  split
  · exact absurd rfl (h _)
  · rfl

theorem generatedId?_poisoned (call : Call) :
    generatedId? call (poisoned.call call).1 = none := by
  refine generatedId?_eq_none_of_ne_saved fun key => ?_
  cases call <;> simp [SharedStore.call, look, get, save, Answer.ofSave]

theorem greatestId_of_moves {store after : Store} {call : Call} {answer : Answer}
    (hmoves : Moves store call answer after) (hstore : store.Reachable) :
    store.greatestId ≤ after.greatestId ∧ ∀ id, generatedId? call answer = some id →
      store.greatestId < id.toNat ∧ id.toNat ≤ after.greatestId := by
  cases hmoves with
  | kept hnone =>
    refine ⟨Nat.le_refl _, ?_⟩
    intro id hid
    rw [generatedId?_eq_none hnone] at hid
    cases hid
  | @saved keyPrefix policy now draws assigned after hsave =>
    obtain ⟨next, hassigns, rfl⟩ := Store.assigns_of_save hsave
    have hindexed := hstore.keyed.toIndexed
    have hgreatest : (store.withCounter next).greatestId = store.greatestId := rfl
    rw [Store.greatestId_append, hgreatest]
    refine ⟨Nat.le_max_left _ _, ?_⟩
    intro id hid
    cases hassigns with
    | @own policy key hkey _ =>
      -- a policy with an id of its own generates none
      cases policy with
      | odrl policy => cases hid
      | generic policy =>
        have hown : policy.id ≠ none := by
          rintro hnone
          simp [Policy.ownKey?, hnone] at hkey
        simp [generatedId?, hown] at hid
    | drawn => cases hid
    | @counted policy next hkey hfree =>
      have hnone : policy.id = none := Option.map_eq_none_iff.mp hkey
      have hnext : next = id := by simpa [generatedId?, hnone] using hid
      cases hnext
      have habove := (Store.isLeast_of_freeId? hindexed hstore.counted hfree).1.1
      rw [Policy.genericId?_withKey]
      exact ⟨habove, Nat.le_max_right _ _⟩

theorem generatedIds_cons (call : Call) (answer : Answer) (history : List (Call × Answer)) :
    generatedIds ((call, answer) :: history) =
      (generatedId? call answer).toList ++ generatedIds history := by
  cases h : generatedId? call answer <;> simp [generatedIds, h]

theorem generatedIds_run_poisoned (calls : List Call) :
    generatedIds (poisoned.run calls).1 = [] := by
  induction calls with
  | nil => rfl
  | cons call rest ih =>
    obtain ⟨hafter, _⟩ := call_poisoned call
    simp only [run, hafter]
    rw [generatedIds_cons, generatedId?_poisoned, ih]
    rfl

theorem generatedIds_rise {store : Store} (hstore : store.Reachable) (calls : List Call) :
    (generatedIds ((usable store).run calls).1).Pairwise (· < ·) ∧
      ∀ id ∈ generatedIds ((usable store).run calls).1, store.greatestId < id.toNat := by
  -- the greatest id only rises, so it bounds all ids of the rest of the run from below
  induction calls generalizing store with
  | nil => simp [run, generatedIds]
  | cons call rest ih =>
    rcases call_usable store call with ⟨answer, after, hcall, _, hmoves⟩ | hcall
    · obtain ⟨hle, hgenerated⟩ := greatestId_of_moves hmoves hstore
      obtain ⟨hrise, habove⟩ := ih (reachable_of_moves hmoves hstore)
      simp only [run, hcall]
      rw [generatedIds_cons]
      cases hid : generatedId? call answer with
      | none => exact ⟨hrise, fun id hmem => Nat.lt_of_le_of_lt hle (habove id hmem)⟩
      | some id =>
        obtain ⟨hlt, hafter⟩ := hgenerated id hid
        refine ⟨List.pairwise_cons.mpr ⟨?_, hrise⟩, ?_⟩
        · intro later hlater
          exact UInt64.lt_iff_toNat_lt.mpr (Nat.lt_of_le_of_lt hafter (habove later hlater))
        · intro later hlater
          rcases List.mem_cons.mp hlater with rfl | hlater
          · exact hlt
          · exact Nat.lt_of_le_of_lt hle (habove later hlater)
    · -- a save that breaks off ends the run
      have hnone : generatedId? call .brokenOff = none :=
        generatedId?_eq_none_of_ne_saved fun key => by simp
      simp only [run, hcall]
      rw [generatedIds_cons, hnone, generatedIds_run_poisoned]
      simp

theorem lt_of_generated {calls : List Call} {before rest : List (Call × Answer)} {call : Call}
    {answer : Answer} (h : ((usable .empty).run calls).1 = before ++ (call, answer) :: rest)
    {id : UInt64} (hid : generatedId? call answer = some id) {entry : StoredPolicy}
    (hentry : entry ∈ snapshots before) {earlier : UInt64}
    (hearlier : entry.policy.genericId? = some earlier) : earlier < id := by
  obtain ⟨prior, rfl, rfl⟩ := run_eq_append_cons h
  cases hlast : ((usable .empty).run prior).2 with
  | poisoned =>
    rw [hlast, generatedId?_poisoned] at hid
    cases hid
  | usable store =>
    obtain ⟨hstore, hentries⟩ := entries_of_run hlast .empty
    rw [hlast] at hid
    rcases call_usable store call with ⟨answer, after, hcall, _, hmoves⟩ | hcall
    · rw [hcall] at hid
      have hlt := ((greatestId_of_moves hmoves hstore).2 id hid).1
      have hmem : entry ∈ store.list none := by
        rw [Store.list, hentries]
        exact List.mem_append_right _ hentry
      exact UInt64.lt_iff_toNat_lt.mpr (Nat.lt_of_le_of_lt (Store.le_greatestId hmem hearlier) hlt)
    · rw [hcall, generatedId?_eq_none_of_ne_saved fun key => by simp] at hid
      cases hid

end SharedStore

namespace Store

theorem generated_ids_of_history :
    (∀ store : Store, store.Reachable →
      store.nextGenericId.map UInt64.toNat =
          (if store.greatestId = UInt64.size - 1 then none else some (store.greatestId + 1)) ∧
        ∀ keyPrefix (policy : GenericPolicy) now draws, policy.id = none →
          (∀ id, (∃ assigned after,
                store.save keyPrefix (.generic policy) now draws = (.ok assigned, after) ∧
                  assigned.key = PolicyKey.ofId id ∧
                  assigned.snapshot = .generic { policy with id := some id }) ↔
              store.IsLeastFreeAbove id) ∧
            ((store.save keyPrefix (.generic policy) now draws).1 = .error .idsExhausted ↔
              ∀ id, ¬ store.IsFreeAbove id)) ∧
    ∀ calls, (SharedStore.generatedIds ((SharedStore.usable .empty).run calls).1).Pairwise (· < ·) ∧
      ∀ before call answer rest,
        ((SharedStore.usable .empty).run calls).1 = before ++ (call, answer) :: rest →
        ∀ id, SharedStore.generatedId? call answer = some id →
          ∀ entry ∈ SharedStore.snapshots before, ∀ earlier,
            entry.policy.genericId? = some earlier → earlier < id := by
  refine ⟨?_, ?_⟩
  · intro store hstore
    have hindexed := hstore.keyed.toIndexed
    have hcounted := hstore.counted
    refine ⟨hcounted, ?_⟩
    intro keyPrefix policy now draws hid
    rw [save_generic hid]
    refine ⟨?_, ?_⟩
    · intro id
      rw [← freeId?_eq_some_iff hindexed hcounted]
      cases store.freeId? with
      | none => simp
      | some found =>
        constructor
        · rintro ⟨assigned, after, hsave, hkey, _⟩
          cases hsave
          have hid := congrArg PolicyKey.id hkey
          simpa using hid
        · rintro ⟨⟩
          exact ⟨_, _, rfl, rfl, rfl⟩
    · rw [← freeId?_eq_none_iff hindexed hcounted]
      cases store.freeId? <;> simp
  · intro calls
    refine ⟨(SharedStore.generatedIds_rise .empty calls).1, ?_⟩
    intro before call answer rest hhistory id hid entry hentry earlier hearlier
    exact SharedStore.lt_of_generated hhistory hid hentry hearlier

def squatted : List StoredPolicy :=
  [⟨⟨"2"⟩, .offerOf "2", ⟨0, 0⟩⟩, ⟨⟨"1"⟩, .accessOf (some 1), ⟨1, 0⟩⟩]

def lastSquatted : List StoredPolicy :=
  [⟨⟨"18446744073709551615"⟩, .offerOf "18446744073709551615", ⟨0, 0⟩⟩,
    ⟨⟨"18446744073709551614"⟩, .accessOf (some 18446744073709551614), ⟨1, 0⟩⟩]

theorem greatestId_of_list {store : Store} {entries : List StoredPolicy}
    (hlist : store.list none = entries) : store.greatestId =
      (entries.filterMap fun entry => entry.policy.genericId?.map UInt64.toNat).max?.getD 0 :=
  hlist ▸ rfl

theorem isLeastFreeAbove_squatted {store : Store} (hlist : store.list none = squatted) :
    store.IsLeastFreeAbove 3 := by
  have hgreatest : store.greatestId = 1 := greatestId_of_list hlist
  refine ⟨⟨?_, ?_⟩, ?_⟩
  · rw [hgreatest]
    decide
  · rw [hlist]
    decide
  · rintro n ⟨habove, hfree⟩
    rw [hlist] at hfree
    have hne : PolicyKey.ofId 2 ≠ .ofId n := hfree _ List.mem_cons_self
    have htwo : 2 ≠ n.toNat := PolicyKey.toNat_ne hne
    rw [UInt64.le_iff_toNat_le]
    change 3 ≤ n.toNat
    omega

theorem not_isFreeAbove_lastSquatted {store : Store} (hlist : store.list none = lastSquatted)
    (n : UInt64) : ¬ store.IsFreeAbove n := by
  have hgreatest : store.greatestId = 18446744073709551614 := greatestId_of_list hlist
  rintro ⟨habove, hfree⟩
  rw [hlist] at hfree
  have hne : PolicyKey.ofId 18446744073709551615 ≠ .ofId n := hfree _ List.mem_cons_self
  have hlast : 18446744073709551615 ≠ n.toNat := PolicyKey.toNat_ne hne
  have hlt := n.toNat_lt
  omega

theorem generated_ids_of_squatted :
    let calls : List SharedStore.Call :=
      [.saveAt 0 (.offerOf "2"), .saveAt 1 (.accessOf (some 1)), .saveAt 2 (.accessOf none)]
    let before : List (SharedStore.Call × SharedStore.Answer) :=
      [(.saveAt 0 (.offerOf "2"), .saved ⟨"2"⟩), (.saveAt 1 (.accessOf (some 1)), .saved ⟨"1"⟩)]
    (∃ (store after : Store) (assigned : Assigned), store.Reachable ∧
      store.list none = squatted ∧ store.nextGenericId.map UInt64.toNat = some 2 ∧
      store.save "urn:uuid:" (.accessOf none) ⟨2, 0⟩ [] = (.ok assigned, after) ∧
      assigned.key = ⟨"3"⟩ ∧ assigned.snapshot = .accessOf (some 3)) ∧
    ((SharedStore.usable .empty).run calls).1 =
      before ++ [(.saveAt 2 (.accessOf none), .saved ⟨"3"⟩)] ∧
    (∀ entry ∈ SharedStore.snapshots before, ∀ earlier,
      entry.policy.genericId? = some earlier → earlier < 3) ∧
    ∃ store : Store, store.Reachable ∧ store.list none = lastSquatted ∧
      (store.save "urn:uuid:" (.accessOf none) ⟨2, 0⟩ []).1 = .error .idsExhausted := by
  intro calls before
  obtain ⟨hstores, hruns⟩ := generated_ids_of_history
  obtain ⟨one, store, hfirst, hsecond, hstore, hlist⟩ := @exists_pair (.offerOf "2")
    (.accessOf (some 1)) _ _ rfl rfl (by decide) "urn:uuid:" ⟨0, 0⟩ ⟨1, 0⟩
  obtain ⟨hcounter, hsave⟩ := hstores store hstore
  rw [greatestId_of_list hlist] at hcounter
  obtain ⟨assigned, after, hthird, hkey, hsnapshot⟩ : ∃ assigned after,
      store.save "urn:uuid:" (.accessOf none) ⟨2, 0⟩ [] = (.ok assigned, after) ∧
        assigned.key = ⟨"3"⟩ ∧ assigned.snapshot = .accessOf (some 3) :=
    ((hsave "urn:uuid:" (.new .access) ⟨2, 0⟩ [] rfl).1 3).mpr (isLeastFreeAbove_squatted hlist)
  have hrun : ((SharedStore.usable .empty).run calls).1 =
      before ++ [(.saveAt 2 (.accessOf none), .saved ⟨"3"⟩)] := by
    simp only [calls, SharedStore.run_cons, SharedStore.Call.saveAt,
      SharedStore.call_of_save hfirst, SharedStore.call_of_save hsecond,
      SharedStore.call_of_save hthird, hkey]
    rfl
  refine ⟨⟨store, after, assigned, hstore, hlist, hcounter, hthird, hkey, hsnapshot⟩, hrun, ?_, ?_⟩
  · intro entry hentry earlier hearlier
    exact (hruns calls).2 _ _ _ _ hrun _ (by decide) entry hentry earlier hearlier
  · obtain ⟨_, full, -, -, hfull, hlistFull⟩ := @exists_pair (.offerOf "18446744073709551615")
      (.accessOf (some 18446744073709551614)) _ _ rfl rfl (by decide) "urn:uuid:" ⟨0, 0⟩ ⟨1, 0⟩
    obtain ⟨-, hsaveFull⟩ := hstores full hfull
    refine ⟨full, hfull, hlistFull, ?_⟩
    exact (hsaveFull "urn:uuid:" (.new .access) ⟨2, 0⟩ [] rfl).2.mpr
      (not_isFreeAbove_lastSquatted hlistFull)

end Store

end RightsPolicy
