import RightsPolicy.Proofs.Outcome
import RightsPolicy.Proofs.Store.Alike
import RightsPolicy.Proofs.Store.Refusal
import RightsPolicy.Proofs.Store.Validity

namespace RightsPolicy

theorem Policy.ownKey?_of_valid {policy : OdrlPolicy} (h : (Policy.odrl policy).violations = []) :
    (Policy.odrl policy).ownKey? = some ⟨policy.uid⟩ := by
  have hblank : ¬ Text.isBlank policy.uid = true := by
    intro hblank
    have hunmet : (Policy.odrl policy).Unmet ⟨.missingUid, .policy, "uid"⟩ :=
      OdrlPolicy.Unmet.uid (Text.isBlank_iff.mp hblank)
    rw [← Policy.mem_violations_iff, h] at hunmet
    cases hunmet
  rw [Policy.ownKey?, if_neg hblank]

theorem Policy.ownKey?_ne_none_of_valid {policy : OdrlPolicy}
    (h : (Policy.odrl policy).violations = []) : (Policy.odrl policy).ownKey? ≠ none := by
  simp [Policy.ownKey?_of_valid h]

def valid (policies : List Policy) : List Policy :=
  policies.filter fun policy => policy.violations.isEmpty

theorem valid_singleton {policy : Policy} (h : policy.violations = []) :
    valid [policy] = [policy] := by
  simp [valid, h]

theorem valid_singleton_of_invalid {policy : Policy} (h : policy.violations ≠ []) :
    valid [policy] = [] := by
  simp [valid, h]

theorem valid_cons (policy : Policy) (policies : List Policy) :
    valid (policy :: policies) = valid [policy] ++ valid policies :=
  List.filter_append [policy] policies

theorem violations_of_mem_valid {policy : Policy} {policies : List Policy}
    (h : policy ∈ valid policies) : policy.violations = [] :=
  List.isEmpty_iff.mp (List.mem_filter.mp h).2

def StoredPolicy.untimed (entry : StoredPolicy) : PolicyKey × Policy :=
  (entry.key, entry.policy)

namespace Store

variable {store after : Store} {keyPrefix : String} {draws : List Uuid} {policy : Policy}
  {policies : List Policy} {assigned : Assigned} {next : Option UInt64} {cause : StoreError}
  {now : Instant}

inductive KeyBehind (earlier : List StoredPolicy) : Policy → PolicyKey → Prop where
  | uid (policy : OdrlPolicy) : KeyBehind earlier (.odrl policy) ⟨policy.uid⟩
  | own {policy : GenericPolicy} {id} (hid : policy.id = some id) :
      KeyBehind earlier (.generic policy) (PolicyKey.ofId id)
  | counted {policy : GenericPolicy} {id} (hid : policy.id = none)
      (habove : ∀ entry ∈ earlier, ∀ n, entry.policy.genericId? = some n → n < id)
      (hfree : ∀ entry ∈ earlier, entry.key ≠ PolicyKey.ofId id) :
      KeyBehind earlier (.generic policy) (PolicyKey.ofId id)

theorem keyBehind_of_assigns (hstore : store.Reachable) (hvalid : policy.violations = [])
    (h : store.Assigns keyPrefix draws policy assigned next) :
    KeyBehind (store.list none) policy assigned.key := by
  cases h with
  | @own policy key hkey =>
    cases policy with
    | odrl policy =>
      rw [Policy.ownKey?_of_valid hvalid] at hkey
      cases hkey
      exact .uid policy
    | generic policy =>
      obtain ⟨id, hid, rfl⟩ := Option.map_eq_some_iff.mp hkey
      exact .own hid
  | drawn hkey => exact absurd hkey (Policy.ownKey?_ne_none_of_valid hvalid)
  | @counted policy id hkey hfree =>
    obtain ⟨⟨hgreatest, hunused⟩, -⟩ :=
      isLeast_of_freeId? hstore.keyed.toIndexed hstore.counted hfree
    refine .counted (Option.map_eq_none_iff.mp hkey) ?_ hunused
    intro entry hentry n hn
    exact UInt64.lt_iff_toNat_lt.mpr (Nat.lt_of_le_of_lt (le_greatestId hentry hn) hgreatest)

theorem cause_of_refuses (hvalid : policy.violations = [])
    (h : store.Refuses keyPrefix draws policy cause) :
    (∃ key existing, cause = .keyConflict key existing) ∨ cause = .idsExhausted := by
  cases h with
  | conflict => exact .inl ⟨_, _, rfl⟩
  | idsExhausted => exact .inr rfl
  | drawsExhausted hkey => exact absurd hkey (Policy.ownKey?_ne_none_of_valid hvalid)

theorem not_refuses_empty (hvalid : policy.violations = []) :
    ¬ empty.Refuses keyPrefix draws policy cause := by
  have hnone (entry : StoredPolicy) : entry ∉ empty.list none := by simp
  intro h
  cases h with
  | conflict _ hmem => exact hnone _ hmem
  | idsExhausted _ hfree =>
    have hone : empty.IsFreeAbove 1 :=
      ⟨Nat.zero_lt_one, fun entry hentry => absurd hentry (hnone entry)⟩
    exact hfree 1 hone
  | drawsExhausted hkey => exact absurd hkey (Policy.ownKey?_ne_none_of_valid hvalid)

def saveOne (keyPrefix : String) (now : Instant) (store : Store) (policy : Policy) :
    Except StoreError Store :=
  match store.save keyPrefix policy now [] with
  | (.ok _, after) => .ok after
  | (.error cause, _) => .error cause

theorem saveOne_eq_ok_iff : store.saveOne keyPrefix now policy = .ok after ↔
    ∃ assigned, store.save keyPrefix policy now [] = (.ok assigned, after) := by
  unfold saveOne
  split
  · rename_i assigned after hsave
    simp [hsave]
  · rename_i cause after hsave
    simp [hsave]

theorem saveOne_eq_error_iff (hstore : store.Reachable) :
    store.saveOne keyPrefix now policy = .error cause ↔
      store.Refuses keyPrefix [] policy cause := by
  rw [← assign_eq_error_iff hstore, ← save_eq_error_iff, saveOne]
  cases store.save keyPrefix policy now [] with
  | mk outcome after => cases outcome <;> simp

theorem reachable_saveOne (hstore : store.Reachable)
    (h : store.saveOne keyPrefix now policy = .ok after) : after.Reachable := by
  obtain ⟨assigned, hsave⟩ := saveOne_eq_ok_iff.mp h
  exact .save hstore hsave

def saveAll (store : Store) (keyPrefix : String) (now : Instant) (policies : List Policy) :
    Except StoreError Store :=
  policies.foldlM (saveOne keyPrefix now) store

theorem saveAll_append (store : Store) (keyPrefix : String) (now : Instant)
    (policies others : List Policy) : store.saveAll keyPrefix now (policies ++ others) =
      (store.saveAll keyPrefix now policies >>= fun after => after.saveAll keyPrefix now others) :=
  List.foldlM_append

theorem saveAll_cons (store : Store) (keyPrefix : String) (now : Instant) (policy : Policy)
    (policies : List Policy) : store.saveAll keyPrefix now (policy :: policies) =
      (store.saveOne keyPrefix now policy >>= fun after => after.saveAll keyPrefix now policies) :=
  List.foldlM_cons

theorem saveAll_singleton (store : Store) (keyPrefix : String) (now : Instant) (policy : Policy) :
    store.saveAll keyPrefix now [policy] = store.saveOne keyPrefix now policy := by
  rw [saveAll_cons]
  exact bind_pure _

theorem saveAll_of_save (h : store.save keyPrefix policy now [] = (.ok assigned, after))
    (policies : List Policy) : store.saveAll keyPrefix now (policy :: policies) =
      after.saveAll keyPrefix now policies := by
  rw [saveAll_cons, saveOne, h]
  rfl

theorem reachable_saveAll (hstore : store.Reachable)
    (h : store.saveAll keyPrefix now policies = .ok after) : after.Reachable := by
  induction policies generalizing store with
  | nil =>
    cases h
    exact hstore
  | cons policy policies ih =>
    rw [saveAll_cons] at h
    obtain ⟨middle, hfirst, h⟩ := bind_eq_ok_iff.mp h
    exact ih (reachable_saveOne hstore hfirst) h

theorem saveAll_eq_error_iff (hstore : store.Reachable) :
    store.saveAll keyPrefix now policies = .error cause ↔
      ∃ earlier policy later middle, policies = earlier ++ policy :: later ∧
        store.saveAll keyPrefix now earlier = .ok middle ∧
        middle.Refuses keyPrefix [] policy cause := by
  constructor
  · intro h
    induction policies generalizing store with
    | nil => cases h
    | cons policy policies ih =>
      rw [saveAll_cons] at h
      cases hfirst : store.saveOne keyPrefix now policy with
      | error found =>
        rw [hfirst] at h
        cases h
        exact ⟨[], policy, policies, store, rfl, rfl, (saveOne_eq_error_iff hstore).mp hfirst⟩
      | ok next =>
        -- what is refused stands behind the first policy
        rw [hfirst] at h
        obtain ⟨earlier, refused, later, middle, rfl, hmiddle, hrefuses⟩ :=
          ih (reachable_saveOne hstore hfirst) h
        refine ⟨policy :: earlier, refused, later, middle, rfl, ?_, hrefuses⟩
        rw [saveAll_cons, hfirst]
        exact hmiddle
  · rintro ⟨earlier, policy, later, middle, rfl, hmiddle, hrefuses⟩
    have hrefused : middle.saveOne keyPrefix now policy = .error cause :=
      (saveOne_eq_error_iff (reachable_saveAll hstore hmiddle)).mpr hrefuses
    rw [saveAll_append, hmiddle]
    change middle.saveAll keyPrefix now (policy :: later) = _
    rw [saveAll_cons, hrefused]
    rfl

theorem saveAll_valid_singleton (keyPrefix : String) (now : Instant) (policy : Policy) :
    ∃ after, empty.saveAll keyPrefix now (valid [policy]) = .ok after := by
  by_cases hvalid : policy.violations = []
  · rw [valid_singleton hvalid, saveAll_singleton]
    cases hsave : empty.saveOne keyPrefix now policy with
    | ok after => exact ⟨after, rfl⟩
    | error cause =>
      exact absurd ((saveOne_eq_error_iff .empty).mp hsave) (not_refuses_empty hvalid)
  · rw [valid_singleton_of_invalid hvalid]
    exact ⟨empty, rfl⟩

inductive Entered : List StoredPolicy → List Policy → List StoredPolicy → Prop where
  | nil {earlier} : Entered earlier [] []
  | cons {earlier policy entry policies entries} (hkey : KeyBehind earlier policy entry.key)
      (hpolicy : entry.policy = policy.withKey entry.key) (hvalid : entry.policy.violations = [])
      (hrest : Entered (earlier ++ [entry]) policies entries) :
      Entered earlier (policy :: policies) (entry :: entries)

theorem entry_of_saveOne (hstore : store.Reachable) (hvalid : policy.violations = [])
    (h : store.saveOne keyPrefix now policy = .ok after) :
    ∃ entry, after.list none = store.list none ++ [entry] ∧
      KeyBehind (store.list none) policy entry.key ∧
      entry.policy = policy.withKey entry.key ∧ entry.policy.violations = [] := by
  obtain ⟨assigned, hsave⟩ := saveOne_eq_ok_iff.mp h
  obtain ⟨next, hassigns, rfl⟩ := assigns_of_save hsave
  refine ⟨_, entries_append, keyBehind_of_assigns hstore hvalid hassigns,
    snapshot_of_assigns hassigns, ?_⟩
  rw [violations_of_assigns hassigns, hvalid, List.erase_nil]

theorem entered_of_saveAll (hstore : store.Reachable)
    (hvalid : ∀ policy ∈ policies, policy.violations = [])
    (h : store.saveAll keyPrefix now policies = .ok after) :
    ∃ entries, after.list none = store.list none ++ entries ∧
      Entered (store.list none) policies entries := by
  induction policies generalizing store with
  | nil =>
    cases h
    exact ⟨[], (List.append_nil _).symm, .nil⟩
  | cons policy policies ih =>
    obtain ⟨hhead, htail⟩ := List.forall_mem_cons.mp hvalid
    rw [saveAll_cons] at h
    obtain ⟨middle, hfirst, h⟩ := bind_eq_ok_iff.mp h
    obtain ⟨entry, hlist, hkey, hpolicy, hentry⟩ := entry_of_saveOne hstore hhead hfirst
    obtain ⟨entries, hentries, hentered⟩ := ih (reachable_saveOne hstore hfirst) htail h
    rw [hlist] at hentries hentered
    refine ⟨entry :: entries, ?_, .cons hkey hpolicy hentry hentered⟩
    rw [hentries, List.append_assoc, List.singleton_append]

def SameButTimes (a b : Store) : Prop :=
  (a.list none).map StoredPolicy.untimed = (b.list none).map StoredPolicy.untimed

theorem saveOne_of_alike {a b : Store} (halike : a.Alike b) (hentries : a.SameButTimes b)
    (h : a.saveOne keyPrefix now policy = .ok after) (later : Instant) :
    ∃ other, b.saveOne keyPrefix later policy = .ok other ∧ after.Alike other ∧
      after.SameButTimes other := by
  obtain ⟨assigned, hsave⟩ := saveOne_eq_ok_iff.mp h
  obtain ⟨houtcome, hafter⟩ := halike.save keyPrefix policy now later []
  cases hother : b.save keyPrefix policy later [] with
  | mk outcome other =>
    rw [hsave, hother] at houtcome hafter
    cases houtcome
    refine ⟨other, saveOne_eq_ok_iff.mpr ⟨assigned, hother⟩, hafter, ?_⟩
    obtain ⟨next, -, rfl⟩ := assigns_of_save hsave
    obtain ⟨next', -, rfl⟩ := assigns_of_save hother
    simp only [SameButTimes, list] at hentries ⊢
    simp [hentries, StoredPolicy.untimed]

theorem saveAll_of_alike {a b : Store} (halike : a.Alike b) (hentries : a.SameButTimes b)
    (h : a.saveAll keyPrefix now policies = .ok after) (later : Instant) :
    ∃ other, b.saveAll keyPrefix later policies = .ok other ∧ after.SameButTimes other := by
  induction policies generalizing a b with
  | nil =>
    cases h
    exact ⟨b, rfl, hentries⟩
  | cons policy policies ih =>
    rw [saveAll_cons] at h
    obtain ⟨middle, hfirst, h⟩ := bind_eq_ok_iff.mp h
    obtain ⟨middle', hfirst', halike', hentries'⟩ := saveOne_of_alike halike hentries hfirst later
    obtain ⟨other, hother, hsame⟩ := ih halike' hentries' h
    refine ⟨other, ?_, hsame⟩
    rw [saveAll_cons, hfirst']
    exact hother

end Store

end RightsPolicy
