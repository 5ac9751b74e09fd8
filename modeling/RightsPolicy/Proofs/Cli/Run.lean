import RightsPolicy.Cli.Program

namespace RightsPolicy.Cli

namespace Run

variable {α β : Type}

structure Ends (run : Run α) (result : Except Failure α) (lines : List String)
    (files : List (String × String)) : Prop where
  result_eq : run.result = result
  printed_eq : run.printed = lines
  written_eq : run.written = files

variable {x : Run α} {f : α → Run β} {a : α} {failure : Failure} {result : Except Failure β}
  {lines later : List String} {files laterFiles : List (String × String)}

theorem Ends.bind (hx : x.Ends (.ok a) lines files) (hf : (f a).Ends result later laterFiles) :
    (x >>= f).Ends result (lines ++ later) (files ++ laterFiles) := by
  have hbind : x >>= f = ⟨(f a).result, x.events ++ (f a).events⟩ := by
    change Run.bind x f = _
    rw [Run.bind, hx.result_eq]
  rw [hbind, ← hx.printed_eq, ← hf.printed_eq, ← hx.written_eq, ← hf.written_eq]
  exact ⟨hf.result_eq, List.filterMap_append, List.filterMap_append⟩

theorem Ends.bind_silent (hx : x.Ends (.ok a) [] []) (hf : (f a).Ends result lines files) :
    (x >>= f).Ends result lines files :=
  hx.bind hf

theorem Ends.bind_error (hx : x.Ends (.error failure) lines files) :
    (x >>= f).Ends (.error failure) lines files := by
  have hbind : x >>= f = ⟨.error failure, x.events⟩ := by
    change Run.bind x f = _
    rw [Run.bind, hx.result_eq]
  rw [hbind]
  exact ⟨rfl, hx.printed_eq, hx.written_eq⟩

theorem ends_pure (a : α) : (pure a : Run α).Ends (.ok a) [] [] :=
  ⟨rfl, rfl, rfl⟩

theorem Ends.bind_pure {result : Except Failure α} (hx : x.Ends result lines files) (g : α → β) :
    (x >>= fun a => pure (g a)).Ends (result.map g) lines files := by
  cases result with
  | error failure => exact hx.bind_error
  | ok a =>
    have hbind := @Ends.bind _ _ x (fun a => pure (g a)) _ _ _ _ _ _ hx (ends_pure (g a))
    rwa [List.append_nil, List.append_nil] at hbind

theorem ends_fail (chain : List String) : (fail chain : Run α).Ends (.error ⟨chain⟩) [] [] :=
  ⟨rfl, rfl, rfl⟩

theorem ends_print (lines : List String) : (print lines).Ends (.ok ()) lines [] := by
  refine ⟨rfl, ?_, ?_⟩
  · rw [print, printed, List.filterMap_map]
    exact List.filterMap_some
  · simp [print, written, List.filterMap_map]

theorem ends_note (record : Log.Record) : (note record).Ends (.ok ()) [] [] :=
  ⟨rfl, rfl, rfl⟩

theorem ends_write (path text : String) : (write path text).Ends (.ok ()) [] [(path, text)] :=
  ⟨rfl, rfl, rfl⟩

theorem ends_ofLogged (logged : Logged α) : (ofLogged logged).Ends (.ok logged.value) [] [] := by
  refine ⟨rfl, ?_, ?_⟩
  · simp [ofLogged, printed, List.filterMap_map]
  · simp [ofLogged, written, List.filterMap_map]

end Run

def ExitCode.ofResult : Except Failure ExitCode → ExitCode
  | .ok code => code
  | .error _ => .failed

theorem Outcome.ofRun_of_ends {run : Run ExitCode} {result : Except Failure ExitCode}
    {lines : List String} {files : List (String × String)} (h : run.Ends result lines files)
    (level : Log.Level) :
    (ofRun level run).code = .ofResult result ∧ (ofRun level run).stdout = unlines lines ∧
      (ofRun level run).written = files := by
  simp only [ofRun, h.result_eq, h.printed_eq, h.written_eq, and_true]
  cases result <;> rfl

theorem unlines_singleton (line : String) : unlines [line] = line ++ "\n" := by
  simp [unlines]

def Files.Holds (files : Files) (path : String) (policy : Policy) : Prop :=
  ∃ text document, files.read path = .ok text ∧ PolicyDocument.ofText text = .ok document ∧
    document.toPolicy = .ok policy

theorem ends_readPolicy {files : Files} {path : String} {policy : Policy}
    (h : files.Holds path policy) : (readPolicy files path).Ends (.ok policy) [] [] := by
  obtain ⟨text, document, htext, hread, himport⟩ := h
  simp only [readPolicy, htext, hread, Journal.toPolicy, himport]
  exact (Run.ends_ofLogged _).bind (Run.ends_pure policy)

inductive Files.Unusable (files : Files) (path : String) : Prop where
  | unread {fault} (hread : files.read path = .error fault)
  | unparsed {text cause} (hread : files.read path = .ok text)
      (hparse : PolicyDocument.ofText text = .error cause)
  | unimported {text document unknown} (hread : files.read path = .ok text)
      (hparse : PolicyDocument.ofText text = .ok document)
      (himport : document.toPolicy = .error unknown)

theorem Files.holds_or_unusable (files : Files) (path : String) :
    (∃ policy, files.Holds path policy) ∨ files.Unusable path := by
  cases hread : files.read path with
  | error fault => exact .inr (.unread hread)
  | ok text =>
    cases hparse : PolicyDocument.ofText text with
    | error cause => exact .inr (.unparsed hread hparse)
    | ok document =>
      cases himport : document.toPolicy with
      | error unknown => exact .inr (.unimported hread hparse himport)
      | ok policy => exact .inl ⟨policy, text, document, hread, hparse, himport⟩

theorem ends_readPolicy_unusable {files : Files} {path : String} (h : files.Unusable path) :
    ∃ failure, (readPolicy files path).Ends (.error failure) [] [] := by
  cases h with
  | unread hread =>
    simp only [readPolicy, hread]
    exact ⟨_, Run.ends_fail _⟩
  | unparsed hread hparse =>
    simp only [readPolicy, hread, hparse]
    exact ⟨_, Run.ends_fail _⟩
  | unimported hread hparse himport =>
    simp only [readPolicy, hread, hparse, Journal.toPolicy, himport]
    exact ⟨_, (Run.ends_ofLogged _).bind_silent (Run.ends_fail _)⟩

theorem Files.holds_iff {files : Files} {path : String} {policy : Policy} :
    files.Holds path policy ↔ (readPolicy files path).result = .ok policy := by
  constructor
  · exact fun h => (ends_readPolicy h).result_eq
  · intro hresult
    rcases files.holds_or_unusable path with ⟨other, hother⟩ | hunusable
    · rw [(ends_readPolicy hother).result_eq] at hresult
      cases hresult
      exact hother
    · obtain ⟨failure, hends⟩ := ends_readPolicy_unusable hunusable
      rw [hends.result_eq] at hresult
      cases hresult

theorem Files.Holds.unique {files : Files} {path : String} {policy other : Policy}
    (h : files.Holds path policy) (hother : files.Holds path other) : policy = other := by
  rw [Files.holds_iff] at h hother
  rw [h] at hother
  cases hother
  rfl

theorem Files.Holds.not_unusable {files : Files} {path : String} {policy : Policy}
    (h : files.Holds path policy) : ¬ files.Unusable path := by
  intro hunusable
  obtain ⟨failure, hends⟩ := ends_readPolicy_unusable hunusable
  rw [Files.holds_iff, hends.result_eq] at h
  cases h

theorem Files.exists_holds {files : Files} {path : String} {motive : Policy → Prop}
    [DecidablePred motive]
    (h : ((readPolicy files path).result.toOption.any fun policy => motive policy) = true) :
    ∃ policy, files.Holds path policy ∧ motive policy := by
  cases hresult : (readPolicy files path).result with
  | error failure =>
    rw [hresult] at h
    cases h
  | ok policy =>
    rw [hresult] at h
    exact ⟨policy, Files.holds_iff.mpr hresult, of_decide_eq_true h⟩

theorem run_of_configuration {options : Options} {files : Files} {config : Config}
    (h : options.configuration files = .ok config) (command : Command) (now : Instant) :
    Invocation.run ⟨options, command⟩ files now =
      Outcome.ofRun config.logging.level (command.run files config now) := by
  simp only [Invocation.run, h]

end RightsPolicy.Cli
