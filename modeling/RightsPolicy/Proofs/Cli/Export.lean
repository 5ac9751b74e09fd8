import RightsPolicy.Proofs.Cli.Run
import RightsPolicy.Proofs.Document.Reread

namespace RightsPolicy.Cli

variable {options : Options} {files : Files} {config : Config} {file : String} {policy : Policy}

def report (file : String) (violations : List Violation) : List String :=
  if violations.isEmpty then [file ++ ": valid"]
  else (file ++ ": " ++ violationCount violations) ::
    violations.map fun violation => "  " ++ violation.text

def Reports (options : Options) (files : Files) (file : String) (violations : List Violation) :
    Prop :=
  ∀ now, let outcome := Invocation.run ⟨options, .validate [file]⟩ files now
    outcome.code = (if violations.isEmpty then .done else .violations) ∧
      outcome.stdout = unlines (report file violations) ∧ outcome.written = []

def Outcome.Delivers (outcome : Outcome) (text : String) : Option String → Prop
  | none => outcome.stdout = text ++ "\n" ∧ outcome.written = []
  | some path => outcome.stdout = "" ∧ outcome.written = [(path, text ++ "\n")]

def Exports (options : Options) (files : Files) (file : String) (violations : List Violation)
    (text : String) : Prop :=
  ∀ now out preview,
    let outcome := Invocation.run ⟨options, .exportFile file out preview⟩ files now
    (outcome.code = .done ↔
      (preview = true ∨ violations = []) ∧ ∀ path ∈ out, files.writeFault path = none) ∧
      (outcome.code = .done → outcome.Delivers text out)

theorem ends_validateFile (h : files.Holds file policy) :
    (Command.validateFile files file).Ends
      (.ok (if policy.violations.isEmpty then .done else .violations))
      (report file policy.violations) [] := by
  refine (ends_readPolicy h).bind_silent ((Run.ends_ofLogged _).bind_silent ?_)
  have hfound : (Journal.validate policy).value = policy.violations := rfl
  rw [hfound, report]
  split
  · exact (Run.ends_print _).bind_pure _
  · exact (Run.ends_print _).bind_pure _

theorem reports_of_holds (hconfig : options.configuration files = .ok config)
    (h : files.Holds file policy) : Reports options files file policy.violations := by
  intro now
  have hone := (ends_validateFile h).bind_pure fun code => code.max .done
  have hmax (code : ExitCode) : code.max .done = code := by cases code <;> rfl
  rw [Except.map, hmax] at hone
  simp only [run_of_configuration hconfig]
  exact Outcome.ofRun_of_ends hone config.logging.level

section Export

variable {out : Option String} {preview : Bool} {path : String}

theorem ends_deliver_printed (files : Files) (file text : String) :
    (Command.deliver files file text none).Ends (.ok ()) [text] [] :=
  Run.ends_print _

theorem ends_deliver_written (hfree : files.writeFault path = none) (text : String) :
    (Command.deliver files file text (some path)).Ends (.ok ()) [] [(path, text ++ "\n")] := by
  simp only [Command.deliver, hfree]
  exact (Run.ends_write _ _).bind (Run.ends_note _)

theorem ends_deliver_fault {fault : FileFault} (hfault : files.writeFault path = some fault)
    (text : String) : (Command.deliver files file text (some path)).Ends
      (.error ⟨["failed to write " ++ path, fault.message]⟩) [] [] := by
  simp only [Command.deliver, hfault]
  exact Run.ends_fail _

theorem ends_runExport (config : Config) {result : Except Failure Unit} {lines : List String}
    {written : List (String × String)} (h : files.Holds file policy)
    (hopen : preview = true ∨ policy.violations = [])
    (hdeliver : (Command.deliver files file
      ((policy.toDocument config.canonical).render config.canonical.pretty) out).Ends
        result lines written) :
    (Command.runExport files config file out preview).Ends (result.map fun _ => .done) lines
      written := by
  refine (ends_readPolicy h).bind_silent ((Run.ends_ofLogged _).bind_silent ?_)
  have hfound : (Journal.validate policy).value = policy.violations := rfl
  have hcondition : (policy.violations.isEmpty || preview) = true := by
    rcases hopen with rfl | hvalid
    · exact Bool.or_true _
    · rw [hvalid]
      rfl
  have hdone := hdeliver.bind_pure fun _ => ExitCode.done
  rw [hfound, if_pos hcondition]
  dsimp only
  split
  · exact (Run.ends_note _).bind_silent ((Run.ends_ofLogged _).bind_silent hdone)
  · exact (Run.ends_ofLogged _).bind_silent hdone

theorem ends_runExport_held (config : Config) (out : Option String)
    (h : files.Holds file policy) (hinvalid : policy.violations ≠ []) :
    (Command.runExport files config file out false).Ends (.ok .violations)
      ((file ++ ": not exported, " ++ violationCount policy.violations) ::
        policy.violations.map fun violation => "  " ++ violation.text) [] := by
  refine (ends_readPolicy h).bind_silent ((Run.ends_ofLogged _).bind_silent ?_)
  have hfound : (Journal.validate policy).value = policy.violations := rfl
  have hcondition : ¬ (policy.violations.isEmpty || false) = true := by
    simpa using hinvalid
  rw [hfound, if_neg hcondition]
  exact (Run.ends_print _).bind_pure fun _ => ExitCode.violations

end Export

theorem exports_of_holds (hconfig : options.configuration files = .ok config)
    (h : files.Holds file policy) : Exports options files file policy.violations
      ((policy.toDocument config.canonical).render config.canonical.pretty) := by
  intro now out preview
  simp only [run_of_configuration hconfig, Command.run]
  by_cases hopen : preview = true ∨ policy.violations = []
  · cases out with
    | none =>
      have hrun := ends_runExport config h hopen (ends_deliver_printed files file _)
      obtain ⟨hcode, hstdout, hwritten⟩ := Outcome.ofRun_of_ends hrun config.logging.level
      rw [unlines_singleton] at hstdout
      exact ⟨iff_of_true hcode ⟨hopen, nofun⟩, fun _ => ⟨hstdout, hwritten⟩⟩
    | some path =>
      cases hwrite : files.writeFault path with
      | none =>
        have hrun := ends_runExport config h hopen (ends_deliver_written hwrite _)
        obtain ⟨hcode, hdelivered⟩ := Outcome.ofRun_of_ends hrun config.logging.level
        refine ⟨iff_of_true hcode ⟨hopen, ?_⟩, fun _ => hdelivered⟩
        rintro _ ⟨⟩
        exact hwrite
      | some fault =>
        have hrun := ends_runExport config h hopen (ends_deliver_fault hwrite _)
        obtain ⟨hcode, -⟩ := Outcome.ofRun_of_ends hrun config.logging.level
        rw [hcode]
        refine ⟨iff_of_false nofun ?_, nofun⟩
        rintro ⟨-, hfree⟩
        rw [hfree path rfl] at hwrite
        cases hwrite
  · obtain ⟨hpreview, hinvalid⟩ := not_or.mp hopen
    rw [Bool.not_eq_true] at hpreview
    subst hpreview
    have hrun := ends_runExport_held config out h hinvalid
    obtain ⟨hcode, -⟩ := Outcome.ofRun_of_ends hrun config.logging.level
    rw [hcode]
    exact ⟨iff_of_false nofun fun hboth => hopen hboth.1, nofun⟩

theorem exports_stable (hconfig : options.configuration files = .ok config)
    (h : files.Holds file policy) :
    Reports options files file policy.violations ∧
    ∃ exported, Exports options files file policy.violations exported ∧
      ∀ (later : Files) (copy : String) (blanks : List Char),
        (∀ c ∈ blanks, Json.Scan.isBlank c = true) →
        later.read copy = .ok (exported ++ String.ofList blanks) →
        (∃ again, later.Holds copy again ∧ again.violations = policy.violations) ∧
        ∀ (others : Options) (otherConfig : Config),
          others.configuration later = .ok otherConfig →
          Reports others later copy policy.violations ∧
          (otherConfig.canonical = config.canonical →
            Exports others later copy policy.violations exported) := by
  refine ⟨reports_of_holds hconfig h, _, exports_of_holds hconfig h, ?_⟩
  intro later copy blanks hblanks hcopy
  obtain ⟨text, document, -, hread, himport⟩ := h
  obtain ⟨hreread, again, hagain, hviolations, hexport⟩ := PolicyDocument.reread_of_ofText hread
    himport config.canonical config.canonical.pretty hblanks
  have hholds : later.Holds copy again := ⟨_, _, hcopy, hreread, hagain⟩
  refine ⟨⟨again, hholds, hviolations⟩, ?_⟩
  intro others otherConfig hothers
  rw [← hviolations]
  refine ⟨reports_of_holds hothers hholds, ?_⟩
  intro hsame
  have hexports := exports_of_holds hothers hholds
  rwa [hsame, hexport] at hexports

def untidyText : String :=
  "\x7b\"kind\":\"access\",\"name\":\"N\",\"x\":1,\"targetUsers\":[\"b\",\"a\",\"b\"]," ++
    "\"validTo\":\"2024-01-01T02:00:00+02:00\"\x7d"

def untidyFiles : Files :=
  ⟨fun path => if path = "draft.json" then .ok untidyText else .error .absent, fun _ => none⟩

theorem exports_stable_untidy :
    let options : Options := ⟨none, none, none, false⟩
    let copied (text : String) : Files :=
      ⟨fun path => if path = "copy.json" then .ok (text ++ "\n") else .error .absent, fun _ => none⟩
    ∃ policy exported, untidyFiles.Holds "draft.json" policy ∧ policy.violations ≠ [] ∧
      Reports options untidyFiles "draft.json" policy.violations ∧
      Exports options untidyFiles "draft.json" policy.violations exported ∧
      (∃ again, (copied exported).Holds "copy.json" again ∧
        again.violations = policy.violations) ∧
      Reports options (copied exported) "copy.json" policy.violations ∧
      Exports options (copied exported) "copy.json" policy.violations exported := by
  intro options copied
  obtain ⟨policy, hholds, hinvalid⟩ : ∃ policy, untidyFiles.Holds "draft.json" policy ∧
      policy.violations ≠ [] := Files.exists_holds (by decide +kernel)
  have hconfig : options.configuration untidyFiles = .ok default := by decide
  obtain ⟨hreports, exported, hexports, hreread⟩ := exports_stable hconfig hholds
  have hblank : ∀ c ∈ ['\n'], Json.Scan.isBlank c = true := by simp [Json.Scan.isBlank]
  obtain ⟨hagain, hsame⟩ := hreread (copied exported) "copy.json" ['\n'] hblank rfl
  obtain ⟨hcopied, hstable⟩ := hsame options default hconfig
  exact ⟨policy, exported, hholds, hinvalid, hreports, hexports, hagain, hcopied, hstable rfl⟩

end RightsPolicy.Cli
