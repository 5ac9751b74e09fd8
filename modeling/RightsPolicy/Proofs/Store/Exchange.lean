import RightsPolicy.Proofs.Store.Alike

namespace RightsPolicy

namespace Store

def appendOwn (store : Store) (policy : Policy) (key : PolicyKey) (now : Instant) : Store :=
  (store.withCounter (store.counterFor policy)).append ⟨key, policy, false, []⟩ now

def saveOwn (store : Store) (policy : Policy) (key : PolicyKey) (now : Instant) : Store :=
  match store.conflict? policy key with
  | some _ => store
  | none => store.appendOwn policy key now

variable {store : Store} {a b policy : Policy} {keyA keyB key : PolicyKey}
  {now now' later later' : Instant} {cause : StoreError}

theorem latest?_appendOwn (h : store.Indexed) (policy : Policy) (key other : PolicyKey)
    (now : Instant) : (store.appendOwn policy key now).latest? other =
      if key = other then some ⟨key, policy, now⟩ else store.latest? other := by
  rw [appendOwn, latest?_append (h.withCounter _), latest?_withCounter]

theorem conflict?_saveOwn (h : store.Indexed) (hne : keyB ≠ keyA) (a b : Policy) (now : Instant) :
    (store.saveOwn b keyB now).conflict? a keyA = store.conflict? a keyA := by
  unfold saveOwn
  split
  · rfl
  · rw [conflict?, latest?_appendOwn h, if_neg hne, ← conflict?]

theorem saveOwn_of_conflict (h : store.conflict? policy key = some cause) :
    store.saveOwn policy key now = store := by
  rw [saveOwn, h]

theorem saveOwn_of_free (h : store.conflict? policy key = none) :
    store.saveOwn policy key now = store.appendOwn policy key now := by
  rw [saveOwn, h]

theorem reachable_appendOwn (h : store.Reachable) (hkey : policy.ownKey? = some key)
    (hfree : store.conflict? policy key = none) (now : Instant) :
    (store.appendOwn policy key now).Reachable := by
  exact .save h (save_of_assign (assign_of_free hkey hfree "" []))

theorem reachable_saveOwn (h : store.Reachable) (hkey : policy.ownKey? = some key)
    (now : Instant) : (store.saveOwn policy key now).Reachable := by
  cases hconflict : store.conflict? policy key with
  | some cause => rwa [saveOwn_of_conflict hconflict]
  | none =>
    rw [saveOwn_of_free hconflict]
    exact reachable_appendOwn h hkey hconflict now

theorem indexed_appendOwn (h : store.Indexed) (policy : Policy) (key : PolicyKey) (now : Instant) :
    (store.appendOwn policy key now).Indexed :=
  indexed_append (h.withCounter _)

theorem greatestId_appendOwn (store : Store) (policy : Policy) (key : PolicyKey) (now : Instant) :
    (store.appendOwn policy key now).greatestId =
      max store.greatestId ((policy.genericId?.map UInt64.toNat).getD 0) :=
  greatestId_append

theorem alike_appendOwn (h : store.Indexed) (policy : Policy) (key : PolicyKey)
    (now later : Instant) :
    (store.appendOwn policy key now).Alike (store.appendOwn policy key later) :=
  ((alike_refl h).withCounter _).append _ now later

theorem appendOwn_exchange (h : store.Reachable) (hne : keyA ≠ keyB)
    (hforth : ((store.appendOwn a keyA now).appendOwn b keyB later).Reachable)
    (hback : ((store.appendOwn b keyB now').appendOwn a keyA later').Reachable) :
    ((store.appendOwn a keyA now).appendOwn b keyB later).Alike
      ((store.appendOwn b keyB now').appendOwn a keyA later') := by
  have hindexed := h.keyed.toIndexed
  refine alike_of_reachable hforth hback ?_ ?_ ?_
  · intro key
    simp only [latest?_appendOwn hindexed, latest?_appendOwn (indexed_appendOwn hindexed _ _ _)]
    by_cases hkey : keyA = key
    · have hother : keyB ≠ key := hkey ▸ hne.symm
      simp [hkey, hother]
    · simp only [if_neg hkey]
      split <;> rfl
  · simp only [greatestId_appendOwn]
    omega
  · simp [appendOwn, size, append]

theorem alike_saveOwn (h : store.Reachable) (ha : a.ownKey? = some keyA)
    (hb : b.ownKey? = some keyB) (hne : keyA ≠ keyB) (now now' later later' : Instant) :
    ((store.saveOwn a keyA now).saveOwn b keyB later).Alike
      ((store.saveOwn b keyB now').saveOwn a keyA later') := by
  have hindexed := h.keyed.toIndexed
  have hforth := reachable_saveOwn (reachable_saveOwn h ha now) hb later
  have hback := reachable_saveOwn (reachable_saveOwn h hb now') ha later'
  have hconflictA := conflict?_saveOwn hindexed hne.symm a b now'
  have hconflictB := conflict?_saveOwn hindexed hne b a now
  cases hA : store.conflict? a keyA with
  | some causeA =>
    rw [hA] at hconflictA
    rw [saveOwn_of_conflict hconflictA, saveOwn_of_conflict hA]
    cases hB : store.conflict? b keyB with
    | some causeB =>
      rw [saveOwn_of_conflict hB, saveOwn_of_conflict hB]
      exact alike_refl hindexed
    | none =>
      rw [saveOwn_of_free hB, saveOwn_of_free hB]
      exact alike_appendOwn hindexed b keyB later now'
  | none =>
    rw [hA] at hconflictA
    cases hB : store.conflict? b keyB with
    | some causeB =>
      rw [hB] at hconflictB
      rw [saveOwn_of_conflict hconflictB, saveOwn_of_conflict hB, saveOwn_of_free hA,
        saveOwn_of_free hA]
      exact alike_appendOwn hindexed a keyA now later'
    | none =>
      rw [hB] at hconflictB
      rw [saveOwn_of_free hconflictB, saveOwn_of_free hA] at hforth ⊢
      rw [saveOwn_of_free hconflictA, saveOwn_of_free hB] at hback ⊢
      exact appendOwn_exchange h hne hforth hback

end Store

namespace SharedStore

structure Handle where
  keyPrefix : String
  now : Instant
  draws : List Uuid

def Handle.save (handle : Handle) (policy : Policy) : Call :=
  .save handle.keyPrefix policy (some handle.now) handle.draws

def ownAnswer (store : Store) (policy : Policy) (key : PolicyKey) : Answer :=
  match store.conflict? policy key with
  | some cause => .refused cause
  | none => .saved key

def added (policy : Policy) (now : Instant) : Answer → List StoredPolicy
  | .saved key => [⟨key, policy, now⟩]
  | _ => []

variable {store : Store} {a b policy : Policy} {keyA keyB key : PolicyKey}

theorem call_save_own (hkey : policy.ownKey? = some key) (handle : Handle) :
    (usable store).call (handle.save policy) =
      (ownAnswer store policy key, usable (store.saveOwn policy key handle.now)) := by
  simp only [Handle.save, call, save, get, Store.assign_of_ownKey hkey, Store.assignOwn,
    ownAnswer, Store.saveOwn]
  cases store.conflict? policy key <;> rfl

theorem ownAnswer_cases (store : Store) (policy : Policy) (key : PolicyKey) :
    ownAnswer store policy key = .saved key ∨
      ∃ existing, ownAnswer store policy key = .refused (.keyConflict key existing) := by
  unfold ownAnswer
  cases hconflict : store.conflict? policy key with
  | none => exact .inl rfl
  | some cause =>
    obtain ⟨entry, -, -, rfl⟩ := Store.conflict?_eq_some_iff.mp hconflict
    exact .inr ⟨_, rfl⟩

theorem list_saveOwn (store : Store) (policy : Policy) (key : PolicyKey) (now : Instant) :
    (store.saveOwn policy key now).list none =
      store.list none ++ added policy now (ownAnswer store policy key) := by
  unfold Store.saveOwn ownAnswer
  cases store.conflict? policy key with
  | some cause => exact (List.append_nil _).symm
  | none => exact Store.entries_append

theorem run_saves (store : Store) (ha : a.ownKey? = some keyA) (hb : b.ownKey? = some keyB)
    (one two : Handle) : (usable store).run [one.save a, two.save b] =
      ([(one.save a, ownAnswer store a keyA),
          (two.save b, ownAnswer (store.saveOwn a keyA one.now) b keyB)],
        usable ((store.saveOwn a keyA one.now).saveOwn b keyB two.now)) := by
  rw [run, call_save_own ha]
  dsimp only
  rw [run, call_save_own hb]
  rfl

theorem ownAnswer_saveOwn (h : store.Indexed) (hne : keyB ≠ keyA) (a b : Policy) (now : Instant) :
    ownAnswer (store.saveOwn b keyB now) a keyA = ownAnswer store a keyA := by
  rw [ownAnswer, Store.conflict?_saveOwn h hne, ← ownAnswer]

theorem saves_exchange (h : store.Reachable) (ha : a.ownKey? = some keyA)
    (hb : b.ownKey? = some keyB) (hne : keyA ≠ keyB) (one two three four : Handle) :
    ∃ answerA answerB s t,
      (usable store).run [one.save a, two.save b] =
        ([(one.save a, answerA), (two.save b, answerB)], usable s) ∧
      (usable store).run [three.save b, four.save a] =
        ([(three.save b, answerB), (four.save a, answerA)], usable t) ∧
      (answerA = .saved keyA ∨ ∃ existing, answerA = .refused (.keyConflict keyA existing)) ∧
      (answerB = .saved keyB ∨ ∃ existing, answerB = .refused (.keyConflict keyB existing)) ∧
      s.list none = store.list none ++ added a one.now answerA ++ added b two.now answerB ∧
      t.list none = store.list none ++ added b three.now answerB ++ added a four.now answerA ∧
      (usable s).Indistinguishable (usable t) := by
  have hindexed := h.keyed.toIndexed
  have hanswerA := ownAnswer_saveOwn hindexed hne.symm a b three.now
  have hanswerB := ownAnswer_saveOwn hindexed hne b a one.now
  have hforth := run_saves store ha hb one two
  have hback := run_saves store hb ha three four
  rw [hanswerB] at hforth
  rw [hanswerA] at hback
  refine ⟨_, _, _, _, hforth, hback, ownAnswer_cases _ _ _, ownAnswer_cases _ _ _, ?_, ?_, ?_⟩
  · rw [list_saveOwn, list_saveOwn, hanswerB]
  · rw [list_saveOwn, list_saveOwn, hanswerA]
  · exact (Alike.usable (Store.alike_saveOwn h ha hb hne _ _ _ _)).indistinguishable

theorem saves_exchange_numbered :
    let store := Store.empty.saveOwn (.offerOf "5") ⟨"5"⟩ ⟨0, 0⟩
    let last := Policy.accessOf (some 18446744073709551615)
    let five := Policy.accessOf (some 5)
    let handle : Handle := ⟨"urn:uuid:", ⟨1, 0⟩, []⟩
    store.list none = [⟨⟨"5"⟩, .offerOf "5", ⟨0, 0⟩⟩] ∧
      ∃ answerA answerB s t,
        (usable store).run [handle.save last, handle.save five] =
          ([(handle.save last, answerA), (handle.save five, answerB)], usable s) ∧
        (usable store).run [handle.save five, handle.save last] =
          ([(handle.save five, answerB), (handle.save last, answerA)], usable t) ∧
        (usable s).Indistinguishable (usable t) := by
  intro store last five handle
  have hfree : Store.empty.conflict? (.offerOf "5") ⟨"5"⟩ = none :=
    Store.conflict?_eq_none Store.indexed_empty (by simp)
  have hne : PolicyKey.ofId 18446744073709551615 ≠ PolicyKey.ofId 5 := by decide
  have hstore : store.Reachable := Store.reachable_saveOwn .empty rfl ⟨0, 0⟩
  obtain ⟨answerA, answerB, s, t, hforth, hback, -, -, -, -, hsame⟩ :=
    saves_exchange (a := last) (b := five) hstore rfl rfl hne handle handle handle handle
  refine ⟨?_, answerA, answerB, s, t, hforth, hback, hsame⟩
  simp [store, Store.saveOwn_of_free hfree, Store.appendOwn, Store.list, Store.empty, Store.append,
    Store.withCounter]

end SharedStore

end RightsPolicy
