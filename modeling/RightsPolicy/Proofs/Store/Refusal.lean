import RightsPolicy.Proofs.Store.Counter

namespace RightsPolicy

namespace Store

/-- Why a store with these entries refuses to save a policy. The random identifiers that are drawn
count as a reason only when every one of them gives a key in use. -/
inductive Refuses (store : Store) (keyPrefix : String) (draws : List Uuid) :
    Policy → StoreError → Prop where
  | conflict {policy entry} (hkey : policy.ownKey? = some entry.key)
      (hmem : entry ∈ store.list none) (hfamily : entry.policy.family ≠ policy.family) :
      Refuses store keyPrefix draws policy
        (.keyConflict entry.key (Vocabulary.term entry.policy.family))
  | idsExhausted {policy : GenericPolicy} (hid : policy.id = none)
      (hfree : ∀ id, ¬ store.IsFreeAbove id) :
      Refuses store keyPrefix draws (.generic policy) .idsExhausted
  | drawsExhausted {policy : OdrlPolicy} (hkey : (Policy.odrl policy).ownKey? = none)
      (hused : ∀ uuid ∈ draws, ∃ entry ∈ store.list none,
        entry.key = PolicyKey.generated keyPrefix uuid) :
      Refuses store keyPrefix draws (.odrl policy) .drawsExhausted

variable {store : Store} {keyPrefix : String} {draws : List Uuid} {policy : Policy}
  {cause : StoreError}

theorem freeDraw?_eq_none_iff : store.freeDraw? keyPrefix draws = none ↔
    ∀ uuid ∈ draws, store.has (PolicyKey.generated keyPrefix uuid) = true := by
  induction draws with
  | nil => simp [freeDraw?]
  | cons uuid draws ih =>
    rw [freeDraw?, List.forall_mem_cons]
    split
    · rename_i hused
      rw [ih]
      simp [hused]
    · rename_i hfree
      simp [hfree]

theorem refuses_of_assign (hkeyed : store.Keyed) (hcounted : store.Counted)
    (h : (store.assign keyPrefix policy draws).1 = .error cause) :
    store.Refuses keyPrefix draws policy cause := by
  have hindexed := hkeyed.toIndexed
  unfold assign at h
  split at h
  · rename_i key hkey
    unfold assignOwn at h
    split at h
    · rename_i hconflict
      cases h
      obtain ⟨entry, hlatest, hfamily, rfl⟩ := conflict?_eq_some_iff.mp hconflict
      obtain ⟨hmem, rfl⟩ := mem_of_latest? hindexed hlatest
      exact .conflict hkey hmem hfamily
    · cases h
  · rename_i hkey
    cases policy with
    | odrl policy =>
      simp only [assignGenerated] at h
      split at h
      · cases h
      · rename_i hnone
        cases h
        refine .drawsExhausted hkey ?_
        intro uuid huuid
        exact (has_eq_true_iff hindexed).mp (freeDraw?_eq_none_iff.mp hnone uuid huuid)
    | generic policy =>
      simp only [assignGenerated, takeId] at h
      cases hfree : store.freeId? with
      | some id =>
        rw [hfree] at h
        cases h
      | none =>
        rw [hfree] at h
        cases h
        exact .idsExhausted (Option.map_eq_none_iff.mp hkey)
          ((freeId?_eq_none_iff hindexed hcounted).mp hfree)

theorem assign_of_refuses (hkeyed : store.Keyed) (hcounted : store.Counted)
    (h : store.Refuses keyPrefix draws policy cause) :
    (store.assign keyPrefix policy draws).1 = .error cause := by
  have hindexed := hkeyed.toIndexed
  cases h with
  | @conflict policy entry hkey hmem hfamily =>
    obtain ⟨last, hlastMem, hlast, hlastKey⟩ := exists_latest hindexed hmem
    -- only the latest entry is looked at, but all entries of a key are of one family
    have hsame := hkeyed.family last hlastMem entry hmem hlastKey
    have hconflict := conflict?_eq_some_iff.mpr ⟨last, hlast, hsame ▸ hfamily, rfl⟩
    simp only [assign, hkey, assignOwn, hconflict, hsame]
  | @idsExhausted policy hid hfree =>
    have hkey : (Policy.generic policy).ownKey? = none := by simp [Policy.ownKey?, hid]
    have hnone := (freeId?_eq_none_iff hindexed hcounted).mpr hfree
    simp only [assign, hkey, assignGenerated, takeId, hnone]
  | @drawsExhausted policy hkey hused =>
    have hnone : store.freeDraw? keyPrefix draws = none := by
      refine freeDraw?_eq_none_iff.mpr ?_
      intro uuid huuid
      exact (has_eq_true_iff hindexed).mpr (hused uuid huuid)
    simp only [assign, hkey, assignGenerated, hnone]

theorem assign_eq_error_iff (h : store.Reachable) :
    (store.assign keyPrefix policy draws).1 = .error cause ↔
      store.Refuses keyPrefix draws policy cause :=
  ⟨refuses_of_assign h.keyed h.counted, assign_of_refuses h.keyed h.counted⟩

end Store

namespace SharedStore

variable {keyPrefix : String} {policy : Policy} {now? : Option Instant} {draws : List Uuid}
  {cause : StoreError}

theorem call_save_eq_refused_iff {store : Store} :
    ((usable store).call (.save keyPrefix policy now? draws)).1 = .refused cause ↔
      (store.assign keyPrefix policy draws).1 = .error cause := by
  simp only [SharedStore.call, save, get]
  split
  · rename_i hassign
    simp [hassign, Answer.ofSave]
  · rename_i hassign
    cases now? <;> simp [hassign, Answer.ofSave]

theorem call_save_eq_saved_iff {store : Store} {now : Instant} :
    (∃ key, ((usable store).call (.save keyPrefix policy (some now) draws)).1 = .saved key) ↔
      ∀ cause, (store.assign keyPrefix policy draws).1 ≠ .error cause := by
  simp only [SharedStore.call, save, get]
  split
  · rename_i hassign
    simp [hassign, Answer.ofSave]
  · rename_i hassign
    simp [hassign, Answer.ofSave]

theorem after_of_refused {shared : SharedStore}
    (h : (shared.call (.save keyPrefix policy now? draws)).1 = .refused cause) :
    (shared.call (.save keyPrefix policy now? draws)).2 = shared := by
  cases shared with
  | poisoned => rfl
  | usable store =>
    have herror := call_save_eq_refused_iff.mp h
    have hkept := Store.assign_of_error herror
    simp only [SharedStore.call, save, get]
    cases hassign : store.assign keyPrefix policy draws with
    | mk outcome after =>
      rw [hassign] at herror hkept
      cases herror
      exact congrArg usable hkept

def isRefusedSave : Call × Answer → Bool
  | (.save .., .refused _) => true
  | _ => false

theorem after_of_isRefusedSave {shared : SharedStore} {call : Call}
    (h : isRefusedSave (call, (shared.call call).1) = true) : (shared.call call).2 = shared := by
  unfold isRefusedSave at h
  split at h
  · rename_i hstep
    obtain ⟨rfl, hanswer⟩ := Prod.mk.inj hstep
    exact after_of_refused hanswer
  · cases h

def kept (history : List (Call × Answer)) : List (Call × Answer) :=
  history.filter fun step => !isRefusedSave step

theorem run_kept (shared : SharedStore) (calls : List Call) :
    shared.run ((kept (shared.run calls).1).map Prod.fst) =
      (kept (shared.run calls).1, (shared.run calls).2) := by
  induction calls generalizing shared with
  | nil => rfl
  | cons call rest ih =>
    have hrest := ih (shared.call call).2
    rw [run_cons]
    cases hrefused : isRefusedSave (call, (shared.call call).1) with
    | true =>
      -- the rest of the run starts where this save did
      rw [kept, List.filter_cons_of_neg (by simp [hrefused])]
      rwa [after_of_isRefusedSave hrefused] at hrest ⊢
    | false =>
      rw [kept, List.filter_cons_of_pos (by simp [hrefused]), List.map_cons, run_cons]
      rw [kept] at hrest
      rw [hrest]

theorem failed_saves_of_reachable :
    (∀ store : Store, store.Reachable → ∀ keyPrefix policy draws,
      (∀ now? cause,
        ((usable store).call (.save keyPrefix policy now? draws)).1 = .refused cause ↔
          store.Refuses keyPrefix draws policy cause) ∧
      ∀ now, (∃ key,
        ((usable store).call (.save keyPrefix policy (some now) draws)).1 = .saved key) ↔
          ∀ cause, ¬ store.Refuses keyPrefix draws policy cause) ∧
    (∀ (store : Store) keyPrefix policy now draws cause,
      (store.save keyPrefix policy now draws).1 = .error cause →
        (store.save keyPrefix policy now draws).2 = store) ∧
    (∀ (shared : SharedStore) keyPrefix policy now? draws cause,
      (shared.call (.save keyPrefix policy now? draws)).1 = .refused cause →
        (shared.call (.save keyPrefix policy now? draws)).2 = shared ∧
        ∀ rest, shared.run (.save keyPrefix policy now? draws :: rest) =
          ((.save keyPrefix policy now? draws, .refused cause) :: (shared.run rest).1,
            (shared.run rest).2)) ∧
    ∀ (shared : SharedStore) calls, shared.run ((kept (shared.run calls).1).map Prod.fst) =
      (kept (shared.run calls).1, (shared.run calls).2) := by
  refine ⟨?_, fun _ _ _ _ _ _ => Store.save_of_error, ?_, run_kept⟩
  · intro store hstore keyPrefix policy draws
    refine ⟨?_, ?_⟩
    · intro now? cause
      rw [call_save_eq_refused_iff, Store.assign_eq_error_iff hstore]
    · intro now
      simp only [call_save_eq_saved_iff, ne_eq, Store.assign_eq_error_iff hstore]
  · intro shared keyPrefix policy now? draws cause hrefused
    have hafter := after_of_refused hrefused
    refine ⟨hafter, ?_⟩
    intro rest
    rw [run_cons, hafter, hrefused]

theorem failed_saves_of_offer :
    let conflict : StoreError := .keyConflict ⟨"5"⟩ "odrl"
    let refused : Call := .saveAt 2 (.accessOf (some 5))
    ∃ store : Store,
      store.list none = [⟨⟨"5"⟩, .offerOf "5", ⟨0, 0⟩⟩, ⟨⟨"1"⟩, .accessOf (some 1), ⟨1, 0⟩⟩] ∧
      (usable store).call refused = (.refused conflict, usable store) ∧
      (store.save "urn:uuid:" (.accessOf (some 5)) ⟨2, 0⟩ []).2 = store ∧
      (usable store).run [refused, .size] =
        ([(refused, .refused conflict), (.size, .counted 2)], usable store) ∧
      ∃ key, ((usable store).call (.saveAt 2 (.accessOf (some 6)))).1 = .saved key := by
  intro conflict refused
  obtain ⟨hreasons, hsave, hshared, -⟩ := failed_saves_of_reachable
  obtain ⟨-, store, -, -, hstore, hlist⟩ := @Store.exists_pair (.offerOf "5") (.accessOf (some 1))
    _ _ rfl rfl (by decide) "urn:uuid:" ⟨0, 0⟩ ⟨1, 0⟩
  have hmem : ⟨⟨"5"⟩, .offerOf "5", ⟨0, 0⟩⟩ ∈ store.list none := by simp [hlist]
  have hrefuses : store.Refuses "urn:uuid:" [] (.accessOf (some 5)) conflict :=
    .conflict (by decide) hmem (by decide)
  have hanswer : ((usable store).call refused).1 = .refused conflict :=
    ((hreasons store hstore _ _ _).1 (some ⟨2, 0⟩) conflict).mpr hrefuses
  obtain ⟨hafter, hrun⟩ := hshared (usable store) _ _ _ _ _ hanswer
  have hcount : (usable store).call .size = (.counted 2, usable store) := by
    rw [show 2 = store.size from (congrArg List.length hlist).symm]
    rfl
  refine ⟨store, hlist, Prod.ext hanswer hafter, ?_, ?_, ?_⟩
  · have herror := Store.assign_of_refuses hstore.keyed hstore.counted hrefuses
    exact hsave store _ _ ⟨2, 0⟩ _ conflict (Store.save_eq_error_iff.mpr herror)
  · refine (hrun [.size]).trans ?_
    rw [run_cons, hcount]
    rfl
  · refine ((hreasons store hstore _ _ _).2 ⟨2, 0⟩).mpr ?_
    intro cause hother
    cases hother with
    | @conflict _ entry hkey hentry _ =>
      rw [hlist] at hentry
      revert hkey
      revert entry
      decide
    | idsExhausted hid => cases hid

end SharedStore

end RightsPolicy
