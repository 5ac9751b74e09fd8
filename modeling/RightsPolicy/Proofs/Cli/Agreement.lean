import RightsPolicy.Proofs.Cli.Catalog
import RightsPolicy.Proofs.Cli.Export

namespace RightsPolicy.Cli

variable {options : Options} {files : Files} {config : Config} {path : String}
  {paths : List String} {policy : Policy} {policies : List Policy} {now later : Instant}

def allReports (paths : List String) (policies : List Policy) : List String :=
  (List.zipWith (fun path policy => report path policy.violations) paths policies).flatten

theorem ends_runValidate (h : List.Forall₂ files.Holds paths policies) :
    (Command.runValidate files paths).Ends (.ok (.ofPolicies policies)) (allReports paths policies)
      [] := by
  induction h with
  | nil => exact Run.ends_pure _
  | @cons path policy paths policies hpolicy _ ih =>
    have hfirst := ends_validateFile hpolicy
    have hrest := ih.bind_pure fun others => (ExitCode.ofPolicies [policy]).max others
    rw [← ExitCode.ofPolicies_singleton] at hfirst
    rw [Except.map, ExitCode.max_ofPolicies] at hrest
    exact hfirst.bind hrest

theorem ends_runValidate_unusable (h : ∃ path ∈ paths, files.Unusable path) :
    ∃ failure lines, (Command.runValidate files paths).Ends (.error failure) lines [] := by
  induction paths with
  | nil => simp at h
  | cons path paths ih =>
    rcases files.holds_or_unusable path with ⟨policy, hpolicy⟩ | hunusable
    · have hlater : ∃ path ∈ paths, files.Unusable path := by
        simpa [hpolicy.not_unusable] using h
      obtain ⟨failure, lines, hrest⟩ := ih hlater
      exact ⟨failure, _, (ends_validateFile hpolicy).bind hrest.bind_error⟩
    · obtain ⟨failure, hread⟩ := ends_readPolicy_unusable hunusable
      exact ⟨failure, [], Run.Ends.bind_error hread.bind_error⟩

def heldBack (file : String) (violations : List Violation) : List String :=
  (file ++ ": not exported, " ++ violationCount violations) ::
    violations.map fun violation => "  " ++ violation.text

inductive ExportEnds (files : Files) (config : Config) (file : String) (out : Option String)
    (outcome : Outcome) : Prop where
  | done {policy : Policy} (h : files.Holds file policy) (hvalid : policy.violations = [])
      (hcode : outcome.code = .done)
      (hdelivers : outcome.Delivers
        ((policy.toDocument config.canonical).render config.canonical.pretty) out)
  | heldBack {policy : Policy} (h : files.Holds file policy) (hinvalid : policy.violations ≠ [])
      (hcode : outcome.code = .violations)
      (hstdout : outcome.stdout = unlines (heldBack file policy.violations))
      (hwritten : outcome.written = [])
  | failed (hunusable : files.Unusable file) (hcode : outcome.code = .failed)
      (hstdout : outcome.stdout = "") (hwritten : outcome.written = [])

def Refused (files : Files) (keyPrefix : String) (now : Instant) (paths : List String)
    (cause : StoreError) : Prop :=
  ∃ policies earlier policy later store, List.Forall₂ files.Holds paths policies ∧
    valid policies = earlier ++ policy :: later ∧
    Store.empty.saveAll keyPrefix now earlier = .ok store ∧
    store.Refuses keyPrefix [] policy cause

variable {keyPrefix : String} {cause : StoreError}

theorem refused_iff : Refused files keyPrefix now paths cause ↔
    ∃ policies, List.Forall₂ files.Holds paths policies ∧
      Store.empty.saveAll keyPrefix now (valid policies) = .error cause := by
  simp only [Store.saveAll_eq_error_iff .empty]
  constructor
  · rintro ⟨policies, earlier, policy, later, store, h, hrefuses⟩
    exact ⟨policies, h, earlier, policy, later, store, hrefuses⟩
  · rintro ⟨policies, h, earlier, policy, later, store, hrefuses⟩
    exact ⟨policies, earlier, policy, later, store, h, hrefuses⟩

theorem cause_of_refused (h : Refused files keyPrefix now paths cause) :
    (∃ key existing, cause = .keyConflict key existing) ∨ cause = .idsExhausted := by
  obtain ⟨policies, earlier, policy, later, store, -, hvalid, -, hrefuses⟩ := h
  have hmem : policy ∈ valid policies := by simp [hvalid]
  exact Store.cause_of_refuses (violations_of_mem_valid hmem) hrefuses

theorem not_refused_singleton (path : String) : ¬ Refused files keyPrefix now [path] cause := by
  rw [refused_iff]
  rintro ⟨policies, h, hsave⟩
  obtain ⟨policy, policies, -, hnil, rfl⟩ := List.forall₂_cons_left_iff.mp h
  cases hnil
  obtain ⟨after, hsaved⟩ := Store.saveAll_valid_singleton keyPrefix now policy
  rw [hsaved] at hsave
  cases hsave

section Codes

variable {file : String} {out : Option String} (hconfig : options.configuration files = .ok config)

include hconfig

theorem validate_of_holds (h : List.Forall₂ files.Holds paths policies) (now : Instant) :
    (Invocation.run ⟨options, .validate paths⟩ files now).code = .ofPolicies policies := by
  rw [run_of_configuration hconfig]
  exact (Outcome.ofRun_of_ends (ends_runValidate h) config.logging.level).1

theorem validate_of_unusable (h : ∃ path ∈ paths, files.Unusable path) (now : Instant) :
    (Invocation.run ⟨options, .validate paths⟩ files now).code = .failed := by
  obtain ⟨failure, lines, hends⟩ := ends_runValidate_unusable h
  rw [run_of_configuration hconfig]
  exact (Outcome.ofRun_of_ends hends config.logging.level).1

theorem validate_eq_iff (paths : List String) (now : Instant) :
    let code := (Invocation.run ⟨options, .validate paths⟩ files now).code
    (code = .failed ↔ ∃ path ∈ paths, files.Unusable path) ∧
    (code = .violations ↔ (∀ path ∈ paths, ¬ files.Unusable path) ∧
      ∃ path ∈ paths, ∃ policy, files.Holds path policy ∧ policy.violations ≠ []) ∧
    (code = .done ↔ ∀ path ∈ paths, ∃ policy, files.Holds path policy ∧ policy.violations = []) := by
  rcases files.holds_all_or_unusable paths with ⟨policies, h⟩ | h
  · have husable := not_unusable_of_holds h
    simp only [validate_of_holds hconfig h now]
    refine ⟨iff_of_false (ExitCode.ofPolicies_ne_failed policies) ?_, ?_, ?_⟩
    · rintro ⟨path, hmem, hunusable⟩
      exact husable path hmem hunusable
    · rw [ExitCode.ofPolicies_eq_violations_iff, exists_mem_iff_of_holds h]
      exact (and_iff_right husable).symm
    · rw [ExitCode.ofPolicies_eq_done_iff, forall_mem_iff_of_holds h]
  · obtain ⟨path, hmem, hunusable⟩ := h
    simp only [validate_of_unusable hconfig ⟨path, hmem, hunusable⟩ now]
    refine ⟨iff_of_true trivial ⟨path, hmem, hunusable⟩, iff_of_false nofun ?_,
      iff_of_false nofun ?_⟩
    · rintro ⟨husable, -⟩
      exact husable path hmem hunusable
    · intro hall
      obtain ⟨policy, hpolicy, -⟩ := hall path hmem
      exact hpolicy.not_unusable hunusable

theorem exportEnds (hfree : ∀ path ∈ out, files.writeFault path = none) (now : Instant) :
    ExportEnds files config file out
      (Invocation.run ⟨options, .exportFile file out false⟩ files now) := by
  rcases files.holds_or_unusable file with ⟨policy, h⟩ | hunusable
  · by_cases hvalid : policy.violations = []
    · obtain ⟨hiff, hdelivers⟩ := exports_of_holds hconfig h now out false
      have hcode := hiff.mpr ⟨.inr hvalid, hfree⟩
      exact .done h hvalid hcode (hdelivers hcode)
    · have hends := ends_runExport_held config out h hvalid
      rw [run_of_configuration hconfig]
      obtain ⟨hcode, hstdout, hwritten⟩ := Outcome.ofRun_of_ends hends config.logging.level
      exact .heldBack h hvalid hcode hstdout hwritten
  · obtain ⟨failure, hread⟩ := ends_readPolicy_unusable hunusable
    have hends : (Command.runExport files config file out false).Ends (.error failure) [] [] :=
      hread.bind_error
    rw [run_of_configuration hconfig]
    obtain ⟨hcode, hstdout, hwritten⟩ := Outcome.ofRun_of_ends hends config.logging.level
    exact .failed hunusable hcode hstdout hwritten

theorem export_eq_validate (hfree : ∀ path ∈ out, files.writeFault path = none)
    (now later : Instant) :
    (Invocation.run ⟨options, .exportFile file out false⟩ files now).code =
      (Invocation.run ⟨options, .validate [file]⟩ files later).code := by
  obtain ⟨hfailed, hviolations, hdone⟩ := validate_eq_iff hconfig [file] later
  cases exportEnds hconfig hfree now with
  | done h hvalid hcode => rw [hcode, hdone.mpr (by simpa using ⟨_, h, hvalid⟩)]
  | heldBack h hinvalid hcode =>
    rw [hcode, hviolations.mpr ⟨by simpa using h.not_unusable, by simpa using ⟨_, h, hinvalid⟩⟩]
  | failed hunusable hcode => rw [hcode, hfailed.mpr (by simpa using hunusable)]

theorem catalog_of_refused (h : Refused files config.store.keyPrefix now paths cause)
    (limit : Option Nat) :
    (Invocation.run ⟨options, .catalog paths limit⟩ files now).code = .failed := by
  obtain ⟨policies, hpolicies, hsave⟩ := refused_iff.mp h
  exact (catalog_of_breaksOff hconfig (breaksOff_of_refused hpolicies hsave) limit).1

theorem catalog_eq_validate (h : ∀ cause, ¬ Refused files config.store.keyPrefix now paths cause)
    (limit : Option Nat) (later : Instant) :
    (Invocation.run ⟨options, .catalog paths limit⟩ files now).code =
      (Invocation.run ⟨options, .validate paths⟩ files later).code := by
  rcases files.holds_all_or_unusable paths with ⟨policies, hpolicies⟩ | hunusable
  · rw [validate_of_holds hconfig hpolicies]
    cases hsave : Store.empty.saveAll config.store.keyPrefix now (valid policies) with
    | error cause => exact absurd (refused_iff.mpr ⟨policies, hpolicies, hsave⟩) (h cause)
    | ok after => exact (catalog_of_saved hconfig hpolicies hsave limit).1
  · rw [validate_of_unusable hconfig hunusable]
    obtain ⟨failure, hbreaksOff⟩ := breaksOff_of_unusable hunusable config now .empty
    exact (catalog_of_breaksOff hconfig hbreaksOff limit).1

theorem commands_agree :
    (∀ paths now, let code := (Invocation.run ⟨options, .validate paths⟩ files now).code
      (code = .failed ↔ ∃ path ∈ paths, files.Unusable path) ∧
      (code = .violations ↔ (∀ path ∈ paths, ¬ files.Unusable path) ∧
        ∃ path ∈ paths, ∃ policy, files.Holds path policy ∧ policy.violations ≠ []) ∧
      (code = .done ↔
        ∀ path ∈ paths, ∃ policy, files.Holds path policy ∧ policy.violations = [])) ∧
    (∀ file out now later, (∀ path ∈ out, files.writeFault path = none) →
      let outcome := Invocation.run ⟨options, .exportFile file out false⟩ files now
      outcome.code = (Invocation.run ⟨options, .validate [file]⟩ files later).code ∧
        ExportEnds files config file out outcome) ∧
    (∀ paths limit now later,
      let code := (Invocation.run ⟨options, .catalog paths limit⟩ files now).code
      (∀ cause, Refused files config.store.keyPrefix now paths cause → code = .failed ∧
        ((∃ key existing, cause = .keyConflict key existing) ∨ cause = .idsExhausted)) ∧
      ((∀ cause, ¬ Refused files config.store.keyPrefix now paths cause) →
        code = (Invocation.run ⟨options, .validate paths⟩ files later).code)) ∧
    ∀ path limit now later, (Invocation.run ⟨options, .catalog [path] limit⟩ files now).code =
      (Invocation.run ⟨options, .validate [path]⟩ files later).code := by
  refine ⟨validate_eq_iff hconfig, ?_, ?_, ?_⟩
  · intro file out now later hfree
    exact ⟨export_eq_validate hconfig hfree now later, exportEnds hconfig hfree now⟩
  · intro paths limit now later
    refine ⟨fun cause h => ?_, fun h => catalog_eq_validate hconfig h limit later⟩
    exact ⟨catalog_of_refused hconfig h limit, cause_of_refused h⟩
  · intro path limit now later
    exact catalog_eq_validate hconfig (fun _ => not_refused_singleton path) limit later

end Codes

def desk : Files where
  read path :=
    if path = "set.json" then
      .ok ("\x7b\"@context\":\"\",\"@type\":\"Set\",\"uid\":\"1\",\"target\":\"t\"," ++
        "\"permission\":[\x7b\"action\":\"play\"\x7d]\x7d")
    else if path = "first.json" then
      .ok ("\x7b\"id\":1,\"name\":\"n\",\"description\":\"d\",\"kind\":\"usage\"," ++
        "\"targetResources\":[\"r\"],\"targetUsers\":[\"u\"]\x7d")
    else if path = "draft.json" then .ok "\x7b\"name\":\"\",\"kind\":\"usage\"\x7d"
    else .error .absent
  writeFault _ := none

theorem desk_set : ∃ policy, desk.Holds "set.json" policy ∧
    policy.ownKey? = some ⟨"1"⟩ ∧ policy.family = .odrl ∧ policy.violations = [] :=
  Files.exists_holds (by decide +kernel)

theorem desk_first : ∃ policy, desk.Holds "first.json" policy ∧
    policy.ownKey? = some ⟨"1"⟩ ∧ policy.family = .generic ∧ policy.violations = [] :=
  Files.exists_holds (by decide +kernel)

theorem desk_draft : ∃ policy, desk.Holds "draft.json" policy ∧ policy.violations ≠ [] :=
  Files.exists_holds (by decide +kernel)

theorem refused_desk (keyPrefix : String) (now : Instant) : ∃ cause,
    Refused desk keyPrefix now ["set.json", "first.json"] cause := by
  obtain ⟨set, hset, hsetKey, hsetFamily, hsetValid⟩ := desk_set
  obtain ⟨first, hfirst, hfirstKey, hfirstFamily, hfirstValid⟩ := desk_first
  have hboth : valid [set, first] = [set, first] := by
    rw [valid_cons, valid_singleton hsetValid, valid_singleton hfirstValid, List.singleton_append]
  obtain ⟨after, hsave, -, hlist, -⟩ :=
    Store.exists_own .empty set hsetKey (by simp) keyPrefix now []
  have hmiddle : Store.empty.saveAll keyPrefix now [set] = .ok after :=
    Store.saveAll_of_save hsave []
  have hmem : ⟨⟨"1"⟩, set, now⟩ ∈ after.list none := by simp [hlist]
  have hfamily : set.family ≠ first.family := by simp [hsetFamily, hfirstFamily]
  exact ⟨_, _, [set], first, [], after, .cons hset (.cons hfirst .nil), hboth, hmiddle,
    .conflict hfirstKey hmem hfamily⟩

theorem commands_agree_desk :
    let code (command : Command) :=
      (Invocation.run ⟨⟨none, none, none, false⟩, command⟩ desk ⟨0, 0⟩).code
    code (.validate ["draft.json", "set.json"]) = .violations ∧
      code (.validate ["set.json", "first.json"]) = .done ∧
      code (.catalog ["set.json", "first.json"] none) = .failed ∧
      code (.catalog ["draft.json"] none) = code (.validate ["draft.json"]) := by
  have hconfig : Options.configuration ⟨none, none, none, false⟩ desk = .ok default := by decide
  obtain ⟨set, hset, -, -, hsetValid⟩ := desk_set
  obtain ⟨first, hfirst, -, -, hfirstValid⟩ := desk_first
  obtain ⟨draft, hdraft, hinvalid⟩ := desk_draft
  obtain ⟨cause, hrefused⟩ := refused_desk (default : Config).store.keyPrefix ⟨0, 0⟩
  obtain ⟨hvalidate, -, hcatalog, hone⟩ := commands_agree hconfig
  refine ⟨?_, ?_, ?_, hone "draft.json" none ⟨0, 0⟩ ⟨0, 0⟩⟩
  · refine (hvalidate _ _).2.1.mpr ⟨?_, "draft.json", by simp, draft, hdraft, hinvalid⟩
    simpa using ⟨hdraft.not_unusable, hset.not_unusable⟩
  · refine (hvalidate _ _).2.2.mpr ?_
    simpa using ⟨⟨_, hset, hsetValid⟩, ⟨_, hfirst, hfirstValid⟩⟩
  · exact ((hcatalog _ none ⟨0, 0⟩ ⟨0, 0⟩).1 cause hrefused).1

end RightsPolicy.Cli
