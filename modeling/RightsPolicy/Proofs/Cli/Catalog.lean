import RightsPolicy.Proofs.Cli.Run
import RightsPolicy.Proofs.Outcome
import RightsPolicy.Proofs.Store.Batch

namespace RightsPolicy.Cli

variable {files : Files} {config : Config} {path : String} {paths : List String} {policy : Policy}
  {policies : List Policy} {store after : Store} {now : Instant} {cause : StoreError}

theorem Files.holds_all_or_unusable (files : Files) (paths : List String) :
    (∃ policies, List.Forall₂ files.Holds paths policies) ∨ ∃ path ∈ paths, files.Unusable path := by
  induction paths with
  | nil => exact .inl ⟨[], .nil⟩
  | cons path paths ih =>
    rcases files.holds_or_unusable path with ⟨policy, hpolicy⟩ | hunusable
    · rcases ih with ⟨policies, hpolicies⟩ | ⟨other, hmem, hunusable⟩
      · exact .inl ⟨policy :: policies, .cons hpolicy hpolicies⟩
      · exact .inr ⟨other, List.mem_cons_of_mem _ hmem, hunusable⟩
    · exact .inr ⟨path, List.mem_cons_self, hunusable⟩

theorem exists_holds_iff (h : files.Holds path policy) (motive : Policy → Prop) :
    (∃ other, files.Holds path other ∧ motive other) ↔ motive policy := by
  constructor
  · rintro ⟨other, hother, hmotive⟩
    rwa [h.unique hother]
  · exact fun hmotive => ⟨policy, h, hmotive⟩

theorem exists_mem_iff_of_holds (h : List.Forall₂ files.Holds paths policies)
    (motive : Policy → Prop) : (∃ policy ∈ policies, motive policy) ↔
      ∃ path ∈ paths, ∃ policy, files.Holds path policy ∧ motive policy := by
  induction h with
  | nil => simp
  | cons hpolicy _ ih => simp only [List.mem_cons, exists_eq_or_imp, exists_holds_iff hpolicy, ih]

theorem forall_mem_iff_of_holds (h : List.Forall₂ files.Holds paths policies)
    (motive : Policy → Prop) : (∀ policy ∈ policies, motive policy) ↔
      ∀ path ∈ paths, ∃ policy, files.Holds path policy ∧ motive policy := by
  induction h with
  | nil => simp
  | cons hpolicy _ ih => simp only [List.forall_mem_cons, exists_holds_iff hpolicy, ih]

theorem not_unusable_of_holds (h : List.Forall₂ files.Holds paths policies) :
    ∀ path ∈ paths, ¬ files.Unusable path := by
  induction h with
  | nil => simp
  | cons hpolicy _ ih => exact List.forall_mem_cons.mpr ⟨hpolicy.not_unusable, ih⟩

namespace ExitCode

def ofPolicies (policies : List Policy) : ExitCode :=
  if policies.all fun policy => policy.violations.isEmpty then .done else .violations

theorem ofPolicies_singleton (policy : Policy) :
    ofPolicies [policy] = if policy.violations.isEmpty then .done else .violations := by
  simp [ofPolicies]

theorem max_ofPolicies (policy : Policy) (policies : List Policy) :
    (ofPolicies [policy]).max (ofPolicies policies) = ofPolicies (policy :: policies) := by
  simp only [ofPolicies, List.all_cons, List.all_nil, Bool.and_true, Bool.and_eq_true]
  split <;> split <;> simp_all [max, value]

theorem ofPolicies_ne_failed (policies : List Policy) : ofPolicies policies ≠ .failed := by
  unfold ofPolicies
  split <;> simp

theorem ofPolicies_eq_violations_iff :
    ofPolicies policies = .violations ↔ ∃ policy ∈ policies, policy.violations ≠ [] := by
  unfold ofPolicies
  split <;> simp_all

theorem ofPolicies_eq_done_iff :
    ofPolicies policies = .done ↔ ∀ policy ∈ policies, policy.violations = [] := by
  unfold ofPolicies
  split <;> simp_all

end ExitCode

def skipped (path : String) (violations : List Violation) : List String :=
  if violations.isEmpty then []
  else (path ++ ": skipped, " ++ violationCount violations) ::
    violations.map fun violation => "  " ++ violation.text

def allSkipped (paths : List String) (policies : List Policy) : List String :=
  (List.zipWith (fun path policy => skipped path policy.violations) paths policies).flatten

def refusal (cause : StoreError) : Failure :=
  ⟨(Error.store cause).chain⟩

theorem value_saveInto (store : Store) (keyPrefix : String) (policy : Policy) (now : Instant) :
    (Journal.saveInto store keyPrefix policy now []).value = store.save keyPrefix policy now [] := by
  unfold Journal.saveInto
  split
  · rename_i hsave
    exact hsave.symm
  · rename_i hsave
    exact hsave.symm

theorem ends_catalogFile (h : files.Holds path policy) (config : Config) (now : Instant)
    (store : Store) : (Command.catalogFile files config now store path).Ends
      (match store.saveAll config.store.keyPrefix now (valid [policy]) with
        | .ok after => .ok (.ofPolicies [policy], after)
        | .error cause => .error (refusal cause))
      (skipped path policy.violations) [] := by
  refine (ends_readPolicy h).bind_silent ((Run.ends_ofLogged _).bind_silent ?_)
  have hfound : (Journal.validate policy).value = policy.violations := rfl
  rw [hfound]
  -- a valid policy is saved and not reported, another one is reported and not saved
  by_cases hvalid : policy.violations = []
  · rw [valid_singleton hvalid, ExitCode.ofPolicies_singleton, hvalid, Store.saveAll_singleton]
    refine (Run.ends_ofLogged _).bind_silent ?_
    rw [value_saveInto, Store.saveOne]
    cases store.save config.store.keyPrefix policy now [] with
    | mk outcome after =>
      cases outcome with
      | error cause => exact Run.ends_fail _
      | ok assigned => exact (Run.ends_note _).bind_pure _
  · have hsome : ¬ policy.violations.isEmpty = true := by simpa using hvalid
    rw [valid_singleton_of_invalid hvalid, ExitCode.ofPolicies_singleton, skipped, if_neg hsome,
      if_neg hsome, if_neg hsome]
    exact (Run.ends_print _).bind_pure _

theorem ends_catalogFile_unusable (h : files.Unusable path) (config : Config) (now : Instant)
    (store : Store) : ∃ failure,
      (Command.catalogFile files config now store path).Ends (.error failure) [] [] := by
  obtain ⟨failure, hread⟩ := ends_readPolicy_unusable h
  exact ⟨failure, hread.bind_error⟩

def BreaksOff {α : Type} (files : Files) (paths : List String) (failure : Failure) (run : Run α) :
    Prop :=
  ∃ before policies, before <+: paths ∧ List.Forall₂ files.Holds before policies ∧
    run.Ends (.error failure) (allSkipped before policies) []

theorem ends_catalogFiles (h : List.Forall₂ files.Holds paths policies)
    (hsave : store.saveAll config.store.keyPrefix now (valid policies) = .ok after) :
    (Command.catalogFiles files config now store paths).Ends (.ok (.ofPolicies policies, after))
      (allSkipped paths policies) [] := by
  induction h generalizing store with
  | nil =>
    cases hsave
    exact Run.ends_pure _
  | @cons path policy paths policies hpolicy _ ih =>
    rw [valid_cons, Store.saveAll_append] at hsave
    obtain ⟨middle, hmiddle, hsave⟩ := bind_eq_ok_iff.mp hsave
    have hfirst := ends_catalogFile hpolicy config now store
    rw [hmiddle] at hfirst
    have hrest := (ih hsave).bind_pure fun others =>
      ((ExitCode.ofPolicies [policy]).max others.1, others.2)
    rw [Except.map, ExitCode.max_ofPolicies] at hrest
    exact hfirst.bind hrest

theorem breaksOff_first (hpolicy : files.Holds path policy) (paths : List String)
    (hsave : store.saveAll config.store.keyPrefix now (valid [policy]) = .error cause) :
    BreaksOff files (path :: paths) (refusal cause)
      (Command.catalogFiles files config now store (path :: paths)) := by
  have hfirst := ends_catalogFile hpolicy config now store
  rw [hsave] at hfirst
  refine ⟨[path], [policy], List.prefix_append [path] paths, .cons hpolicy .nil, ?_⟩
  rw [allSkipped, List.zipWith_cons_cons, List.zipWith_nil_left, List.flatten_singleton]
  exact hfirst.bind_error

theorem BreaksOff.cons {failure : Failure} (hpolicy : files.Holds path policy)
    (hsave : store.saveAll config.store.keyPrefix now (valid [policy]) = .ok after)
    (h : BreaksOff files paths failure (Command.catalogFiles files config now after paths)) :
    BreaksOff files (path :: paths) failure
      (Command.catalogFiles files config now store (path :: paths)) := by
  have hfirst := ends_catalogFile hpolicy config now store
  rw [hsave] at hfirst
  obtain ⟨before, held, hprefix, hheld, hrest⟩ := h
  refine ⟨path :: before, policy :: held, ?_, .cons hpolicy hheld, ?_⟩
  · exact List.cons_prefix_cons.mpr ⟨rfl, hprefix⟩
  · exact hfirst.bind hrest.bind_error

theorem breaksOff_of_refused (h : List.Forall₂ files.Holds paths policies)
    (hsave : store.saveAll config.store.keyPrefix now (valid policies) = .error cause) :
    BreaksOff files paths (refusal cause) (Command.catalogFiles files config now store paths) := by
  induction h generalizing store with
  | nil => cases hsave
  | @cons path policy paths policies hpolicy _ ih =>
    rw [valid_cons, Store.saveAll_append] at hsave
    cases hfirst : store.saveAll config.store.keyPrefix now (valid [policy]) with
    | error found =>
      rw [hfirst] at hsave
      cases hsave
      exact breaksOff_first hpolicy paths hfirst
    | ok middle =>
      rw [hfirst] at hsave
      exact .cons hpolicy hfirst (ih hsave)

theorem breaksOff_of_unusable (h : ∃ path ∈ paths, files.Unusable path) (config : Config)
    (now : Instant) (store : Store) : ∃ failure,
      BreaksOff files paths failure (Command.catalogFiles files config now store paths) := by
  induction paths generalizing store with
  | nil => simp at h
  | cons path paths ih =>
    rcases files.holds_or_unusable path with ⟨policy, hpolicy⟩ | hunusable
    · cases hfirst : store.saveAll config.store.keyPrefix now (valid [policy]) with
      | error cause =>
        -- the catalog does not even get to the file
        exact ⟨refusal cause, breaksOff_first hpolicy paths hfirst⟩
      | ok middle =>
        have hlater : ∃ path ∈ paths, files.Unusable path := by
          simpa [hpolicy.not_unusable] using h
        obtain ⟨failure, hrest⟩ := ih hlater middle
        exact ⟨failure, .cons hpolicy hfirst hrest⟩
    · obtain ⟨failure, hfirst⟩ := ends_catalogFile_unusable hunusable config now store
      exact ⟨failure, [], [], List.nil_prefix, .nil, hfirst.bind_error⟩

theorem saved_or_breaksOff (files : Files) (config : Config) (paths : List String) (now : Instant) :
    (∃ policies after, List.Forall₂ files.Holds paths policies ∧
      Store.empty.saveAll config.store.keyPrefix now (valid policies) = .ok after) ∨
    ∃ failure, BreaksOff files paths failure
      (Command.catalogFiles files config now .empty paths) := by
  rcases files.holds_all_or_unusable paths with ⟨policies, hpolicies⟩ | hunusable
  · cases hsave : Store.empty.saveAll config.store.keyPrefix now (valid policies) with
    | error cause => exact .inr ⟨refusal cause, breaksOff_of_refused hpolicies hsave⟩
    | ok after => exact .inl ⟨policies, after, hpolicies, hsave⟩
  · exact .inr (breaksOff_of_unusable hunusable config now .empty)

section Outcome

variable {options : Options} (hconfig : options.configuration files = .ok config)

include hconfig

theorem catalog_of_saved (h : List.Forall₂ files.Holds paths policies)
    (hsave : Store.empty.saveAll config.store.keyPrefix now (valid policies) = .ok after)
    (limit : Option Nat) :
    let outcome := Invocation.run ⟨options, .catalog paths limit⟩ files now
    outcome.code = .ofPolicies policies ∧
      outcome.stdout =
        unlines (allSkipped paths policies ++ (after.list limit).map Command.catalogLine) := by
  have hall := ends_catalogFiles h hsave
  have hlist := (Run.ends_print ((after.list limit).map Command.catalogLine)).bind_pure fun _ =>
    ExitCode.ofPolicies policies
  have hrun : (Command.runCatalog files config now paths limit).Ends _ _ _ := hall.bind hlist
  simp only [run_of_configuration hconfig]
  obtain ⟨hcode, hstdout, -⟩ := Outcome.ofRun_of_ends hrun config.logging.level
  exact ⟨hcode, hstdout⟩

theorem catalog_of_breaksOff {failure : Failure}
    (h : BreaksOff files paths failure (Command.catalogFiles files config now .empty paths))
    (limit : Option Nat) :
    let outcome := Invocation.run ⟨options, .catalog paths limit⟩ files now
    outcome.code = .failed ∧ ∃ before policies, before <+: paths ∧
      List.Forall₂ files.Holds before policies ∧
      outcome.stdout = unlines (allSkipped before policies) := by
  obtain ⟨before, policies, hprefix, hheld, hends⟩ := h
  have hrun : (Command.runCatalog files config now paths limit).Ends _ _ _ := hends.bind_error
  simp only [run_of_configuration hconfig]
  obtain ⟨hcode, hstdout, -⟩ := Outcome.ofRun_of_ends hrun config.logging.level
  exact ⟨hcode, before, policies, hprefix, hheld, hstdout⟩

end Outcome

end RightsPolicy.Cli
