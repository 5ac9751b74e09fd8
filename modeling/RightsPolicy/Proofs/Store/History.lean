import RightsPolicy.Proofs.Store.KeySpace
import RightsPolicy.Store.Shared

namespace RightsPolicy.SharedStore

inductive Call where
  | save (keyPrefix : String) (policy : Policy) (now? : Option Instant) (draws : List Uuid)
  | load (key : PolicyKey)
  | list (limit : Option Nat)
  | size

inductive Answer where
  | saved (key : PolicyKey)
  | found (policy : Policy)
  | listed (entries : List StoredPolicy)
  | counted (n : Nat)
  | refused (cause : StoreError)
  | brokenOff

def Answer.ofSave : SaveOutcome → Answer
  | .saved assigned _ => .saved assigned.key
  | .refused refusal => .refused refusal.cause
  | .brokenOff _ => .brokenOff

def Answer.ofLoad : Except StoreError Policy → Answer
  | .ok policy => .found policy
  | .error cause => .refused cause

def look (shared : SharedStore) (view : Store → Answer) : Answer :=
  match shared.get with
  | .ok store => view store
  | .error cause => .refused cause

def call (shared : SharedStore) : Call → Answer × SharedStore
  | .save keyPrefix policy now? draws =>
    let outcome := shared.save keyPrefix policy now? draws
    (.ofSave outcome, shared.after outcome)
  | .load key => (shared.look fun store => .ofLoad (store.load key), shared)
  | .list limit => (shared.look fun store => .listed (store.list limit), shared)
  | .size => (shared.look fun store => .counted store.size, shared)

def run (shared : SharedStore) : List Call → List (Call × Answer) × SharedStore
  | [] => ([], shared)
  | call :: rest =>
    let (answer, after) := shared.call call
    let (history, last) := after.run rest
    ((call, answer) :: history, last)

def snapshot? : Call → Answer → Option StoredPolicy
  | .save _ policy (some now) _, .saved key => some ⟨key, policy.withKey key, now⟩
  | _, _ => none

def snapshots (history : List (Call × Answer)) : List StoredPolicy :=
  history.filterMap fun step => snapshot? step.1 step.2

inductive Moves (store : Store) : Call → Answer → Store → Prop where
  | kept {call answer} (h : snapshot? call answer = none) : Moves store call answer store
  | saved {keyPrefix policy now draws assigned after}
      (h : store.save keyPrefix policy now draws = (.ok assigned, after)) :
      Moves store (.save keyPrefix policy (some now) draws) (.saved assigned.key) after

theorem call_poisoned (call : Call) :
    (poisoned.call call).2 = poisoned ∧ (poisoned.call call).1 ≠ .brokenOff := by
  cases call <;> simp [SharedStore.call, look, get, save, after, Answer.ofSave]

theorem save_usable (store : Store) (keyPrefix : String) (policy : Policy)
    (now? : Option Instant) (draws : List Uuid) :
    (∃ answer after, (usable store).call (.save keyPrefix policy now? draws) =
        (answer, usable after) ∧ answer ≠ .brokenOff ∧
        Moves store (.save keyPrefix policy now? draws) answer after) ∨
      (usable store).call (.save keyPrefix policy now? draws) = (.brokenOff, poisoned) := by
  simp only [SharedStore.call, save, get]
  cases hassign : store.assign keyPrefix policy draws with
  | mk outcome counted =>
    cases outcome with
    | error cause =>
      have hkept : counted = store := by
        have hsecond := Store.assign_of_error (congrArg Prod.fst hassign)
        rwa [hassign] at hsecond
      subst hkept
      refine .inl ⟨.refused cause, counted, rfl, by simp, .kept ?_⟩
      cases now? <;> rfl
    | ok assigned =>
      cases now? with
      | none => exact .inr rfl
      | some now =>
        exact .inl ⟨.saved assigned.key, _, rfl, by simp, .saved (Store.save_of_assign hassign)⟩

theorem call_usable (store : Store) (call : Call) :
    (∃ answer after, (usable store).call call = (answer, usable after) ∧ answer ≠ .brokenOff ∧
        Moves store call answer after) ∨
      (usable store).call call = (.brokenOff, poisoned) := by
  cases call with
  | save keyPrefix policy now? draws => exact save_usable store keyPrefix policy now? draws
  | load key =>
    refine .inl ⟨.ofLoad (store.load key), store, rfl, ?_, .kept rfl⟩
    cases store.load key <;> simp [Answer.ofLoad]
  | list limit => exact .inl ⟨.listed (store.list limit), store, rfl, by simp, .kept rfl⟩
  | size => exact .inl ⟨.counted store.size, store, rfl, by simp, .kept rfl⟩

theorem call_of_save {store after : Store} {keyPrefix : String} {policy : Policy} {now : Instant}
    {draws : List Uuid} {assigned : Store.Assigned}
    (h : store.save keyPrefix policy now draws = (.ok assigned, after)) :
    (usable store).call (.save keyPrefix policy (some now) draws) =
      (.saved assigned.key, usable after) := by
  unfold Store.save at h
  split at h
  · rename_i found counted hassign
    cases h
    simp only [SharedStore.call, save, get, hassign]
    rfl
  · cases h

theorem entries_of_moves {store after : Store} {call : Call} {answer : Answer}
    (h : Moves store call answer after) :
    after.entries.toList = store.entries.toList ++ (snapshot? call answer).toList := by
  cases h with
  | kept hnone => simp [hnone]
  | @saved keyPrefix policy now draws assigned after hsave =>
    obtain ⟨next, hassigns, rfl⟩ := Store.assigns_of_save hsave
    rw [Store.entries_append, Store.snapshot_of_assigns hassigns]
    rfl

theorem reachable_of_moves {store after : Store} {call : Call} {answer : Answer}
    (h : Moves store call answer after) (hstore : store.Reachable) : after.Reachable := by
  cases h with
  | kept => exact hstore
  | saved hsave => exact .save hstore hsave

theorem run_cons (shared : SharedStore) (call : Call) (rest : List Call) :
    shared.run (call :: rest) =
      ((call, (shared.call call).1) :: ((shared.call call).2.run rest).1,
        ((shared.call call).2.run rest).2) :=
  rfl

theorem run_poisoned (calls : List Call) :
    (poisoned.run calls).2 = poisoned ∧
      ∀ step ∈ (poisoned.run calls).1, step.2 ≠ .brokenOff := by
  induction calls with
  | nil => simp [run]
  | cons call rest ih =>
    obtain ⟨hafter, hanswer⟩ := call_poisoned call
    simp only [run, hafter]
    refine ⟨ih.1, ?_⟩
    rintro step hstep
    rcases List.mem_cons.mp hstep with rfl | hstep
    · exact hanswer
    · exact ih.2 step hstep

theorem run_eq_poisoned_iff (store : Store) (calls : List Call) :
    ((usable store).run calls).2 = poisoned ↔
      ∃ step ∈ ((usable store).run calls).1, step.2 = .brokenOff := by
  induction calls generalizing store with
  | nil => simp [run]
  | cons call rest ih =>
    rcases call_usable store call with ⟨answer, after, hcall, hanswer, _⟩ | hcall
    · simp only [run, hcall, List.mem_cons, exists_eq_or_imp, hanswer, false_or]
      exact ih after
    · simp [run, hcall, (run_poisoned rest).1]

theorem entries_of_run {store last : Store} {calls : List Call}
    (h : ((usable store).run calls).2 = usable last) (hstore : store.Reachable) :
    last.Reachable ∧ last.entries.toList =
      store.entries.toList ++ snapshots ((usable store).run calls).1 := by
  induction calls generalizing store with
  | nil =>
    cases h
    exact ⟨hstore, by simp [run, snapshots]⟩
  | cons call rest ih =>
    rcases call_usable store call with ⟨answer, after, hcall, _, hmoves⟩ | hcall
    · simp only [run, hcall] at h ⊢
      obtain ⟨hlast, hentries⟩ := ih h (reachable_of_moves hmoves hstore)
      refine ⟨hlast, ?_⟩
      rw [hentries, entries_of_moves hmoves, List.append_assoc]
      cases hadded : snapshot? call answer <;> simp [snapshots, hadded]
    · simp [run, hcall, (run_poisoned rest).1] at h

end SharedStore

namespace Store

structure RefinesLog (store : Store) (log : List StoredPolicy) : Prop where
  list_none : store.list none = log
  list_some : ∀ n, store.list (some n) <:+ log ∧ (store.list (some n)).length = min n log.length
  size_eq : store.size = log.length
  load_eq_ok : ∀ key policy, store.load key = .ok policy ↔
    ∃ older entry newer, log = older ++ entry :: newer ∧ entry.key = key ∧
      (∀ later ∈ newer, later.key ≠ key) ∧ entry.policy = policy
  load_eq_notFound : ∀ key, store.load key = .error (.notFound key) ↔
    ∀ entry ∈ log, entry.key ≠ key
  inRange : ∀ (key : PolicyKey) (position : Nat), store.latest[key]? = some position →
    position < store.entries.size

variable {store : Store}

theorem load_eq_ok_iff (h : store.Indexed) {key : PolicyKey} {policy : Policy} :
    store.load key = .ok policy ↔
      ∃ older entry newer, store.list none = older ++ entry :: newer ∧ entry.key = key ∧
        (∀ later ∈ newer, later.key ≠ key) ∧ entry.policy = policy := by
  have hload : store.load key = .ok policy ↔
      ∃ entry, store.latest? key = some entry ∧ entry.policy = policy := by
    unfold load
    cases store.latest? key <;> simp
  rw [hload]
  constructor
  · rintro ⟨entry, hlatest, hpolicy⟩
    obtain ⟨hkey, older, newer, hsplit, hnewer⟩ := (latest?_eq_some_iff h).mp hlatest
    exact ⟨older, entry, newer, hsplit, hkey, hnewer, hpolicy⟩
  · rintro ⟨older, entry, newer, hsplit, hkey, hnewer, hpolicy⟩
    exact ⟨entry, (latest?_eq_some_iff h).mpr ⟨hkey, older, newer, hsplit, hnewer⟩, hpolicy⟩

theorem load_eq_notFound_iff (h : store.Indexed) {key : PolicyKey} :
    store.load key = .error (.notFound key) ↔ ∀ entry ∈ store.list none, entry.key ≠ key := by
  have hload : store.load key = .error (.notFound key) ↔ store.latest? key = none := by
    unfold load
    cases store.latest? key <;> simp
  rw [hload, latest?_eq_none_iff h]
  rfl

theorem list_some_suffix (n : Nat) :
    store.list (some n) <:+ store.list none ∧
      (store.list (some n)).length = min n (store.list none).length := by
  refine ⟨List.drop_suffix _ _, ?_⟩
  simp only [list, List.length_drop, Array.length_toList]
  omega

theorem Indexed.refinesLog (h : store.Indexed) : store.RefinesLog (store.list none) where
  list_none := rfl
  list_some := list_some_suffix
  size_eq := by simp [size, list]
  load_eq_ok _ _ := load_eq_ok_iff h
  load_eq_notFound _ := load_eq_notFound_iff h
  inRange := h.inRange

end Store

namespace SharedStore

theorem refinesLog_of_run {store : Store} {calls : List Call}
    (h : ((usable .empty).run calls).2 = usable store) :
    store.RefinesLog (snapshots ((usable .empty).run calls).1) := by
  obtain ⟨hreachable, hentries⟩ := entries_of_run h .empty
  have hlist : store.list none = snapshots ((usable .empty).run calls).1 := by
    rw [Store.list, hentries]
    simp [Store.empty]
  rw [← hlist]
  exact hreachable.keyed.toIndexed.refinesLog

theorem run_eq_append_cons {shared : SharedStore} {calls : List Call}
    {before rest : List (Call × Answer)} {call : Call} {answer : Answer}
    (h : (shared.run calls).1 = before ++ (call, answer) :: rest) :
    ∃ earlier, (shared.run earlier).1 = before ∧
      answer = ((shared.run earlier).2.call call).1 := by
  induction before generalizing shared calls with
  | nil =>
    cases calls with
    | nil => cases h
    | cons first calls =>
      cases h
      exact ⟨[], rfl, rfl⟩
  | cons step before ih =>
    cases calls with
    | nil => cases h
    | cons first calls =>
      obtain ⟨hstep, hrest⟩ := List.cons.inj h
      obtain ⟨earlier, hbefore, hanswer⟩ := ih hrest
      refine ⟨first :: earlier, ?_, hanswer⟩
      rw [← hbefore, ← hstep]
      rfl

/-- A run poisons the store exactly when a save of it breaks off. Until then each answer is given by
a store that refines the log of the snapshots before it, and so would be the next one. -/
theorem run_refines_log (calls : List Call) :
    (((usable .empty).run calls).2 = poisoned ↔
      ∃ step ∈ ((usable .empty).run calls).1, step.2 = .brokenOff) ∧
    (∀ store, ((usable .empty).run calls).2 = usable store →
      store.RefinesLog (snapshots ((usable .empty).run calls).1)) ∧
    ∀ before call answer rest,
      ((usable .empty).run calls).1 = before ++ (call, answer) :: rest →
      (∀ step ∈ before, step.2 ≠ .brokenOff) →
      ∃ store : Store, store.RefinesLog (snapshots before) ∧
        answer = ((usable store).call call).1 := by
  refine ⟨run_eq_poisoned_iff .empty calls, fun store => refinesLog_of_run, ?_⟩
  intro before call answer rest hhistory hunbroken
  obtain ⟨earlier, hbefore, hanswer⟩ := run_eq_append_cons hhistory
  cases hlast : ((usable .empty).run earlier).2 with
  | usable store =>
    have hrefines := refinesLog_of_run hlast
    rw [hbefore] at hrefines
    rw [hlast] at hanswer
    exact ⟨store, hrefines, hanswer⟩
  | poisoned =>
    -- a save broke off before the answer
    obtain ⟨step, hstep, hbroken⟩ := (run_eq_poisoned_iff .empty earlier).mp hlast
    rw [hbefore] at hstep
    exact absurd hbroken (hunbroken step hstep)

def Call.saveAt (second : Int) (policy : Policy) : Call :=
  .save "urn:uuid:" policy (some ⟨second, 0⟩) []

theorem run_refines_log_of_revision :
    let before : List (Call × Answer) :=
      [(.saveAt 0 (.offerOf "1"), .saved ⟨"1"⟩), (.saveAt 1 (.agreementOf "1"), .saved ⟨"1"⟩)]
    ∃ store : Store,
      (usable .empty).run [.saveAt 0 (.offerOf "1"), .saveAt 1 (.agreementOf "1"), .load ⟨"1"⟩] =
        (before ++ [(.load ⟨"1"⟩, .found (.agreementOf "1"))], usable store) ∧
      store.RefinesLog
        [⟨⟨"1"⟩, .offerOf "1", ⟨0, 0⟩⟩, ⟨⟨"1"⟩, .agreementOf "1", ⟨1, 0⟩⟩] ∧
      ∃ earlier : Store, earlier.RefinesLog (snapshots before) ∧
        .found (.agreementOf "1") = ((usable earlier).call (.load ⟨"1"⟩)).1 := by
  intro before
  obtain ⟨one, hfirst, hone, hlistOne, -⟩ :=
    Store.exists_own .empty (.offerOf "1") rfl (by simp) "urn:uuid:" ⟨0, 0⟩ []
  obtain ⟨two, hsecond, htwo, hlistTwo, -⟩ :=
    Store.exists_own hone (.agreementOf "1") rfl (by rw [hlistOne]; decide) "urn:uuid:" ⟨1, 0⟩ []
  rw [hlistOne] at hlistTwo
  have hload : two.load ⟨"1"⟩ = .ok (.agreementOf "1") := by
    refine (Store.load_eq_ok_iff htwo.keyed.toIndexed).mpr ?_
    exact ⟨_, _, [], hlistTwo, rfl, by simp, rfl⟩
  have hfound : (usable two).call (.load ⟨"1"⟩) = (.found (.agreementOf "1"), usable two) := by
    simp only [call, look, get, hload]
    rfl
  have hrun : (usable .empty).run
      [.saveAt 0 (.offerOf "1"), .saveAt 1 (.agreementOf "1"), .load ⟨"1"⟩] =
        (before ++ [(.load ⟨"1"⟩, .found (.agreementOf "1"))], usable two) := by
    simp only [run_cons, Call.saveAt, call_of_save hfirst, call_of_save hsecond, hfound]
    rfl
  obtain ⟨-, hlast, hanswers⟩ := run_refines_log
    [.saveAt 0 (.offerOf "1"), .saveAt 1 (.agreementOf "1"), .load ⟨"1"⟩]
  have hrefines := hlast two (congrArg Prod.snd hrun)
  rw [hrun] at hrefines
  have hearlier := hanswers before _ _ [] (congrArg Prod.fst hrun) (by simp [before])
  exact ⟨two, hrun, hrefines, hearlier⟩

end RightsPolicy.SharedStore
