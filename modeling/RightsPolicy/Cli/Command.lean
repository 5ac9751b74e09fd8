import RightsPolicy.Cli.Invocation
import RightsPolicy.Cli.Run
import RightsPolicy.FileFault
import RightsPolicy.Journal
import RightsPolicy.Vocabulary.Table

namespace RightsPolicy.Cli

inductive ExitCode where
  | done
  | violations
  | failed
  deriving DecidableEq, Repr

namespace ExitCode

def value : ExitCode → Nat
  | .done => 0
  | .violations => 1
  | .failed => 2

def max (a b : ExitCode) : ExitCode :=
  if a.value ≤ b.value then b else a

end ExitCode

structure Files where
  read : String → Except FileFault String
  writeFault : String → Option FileFault

def target : String := "covenant::commands::policy"

def violationCount (violations : List Violation) : String :=
  Nat.repr violations.length ++ " violation(s)"

def printViolations (heading : String) (violations : List Violation) : Run Unit :=
  Run.print (heading :: violations.map fun violation => "  " ++ violation.text)

def readPolicy (files : Files) (path : String) : Run Policy :=
  match files.read path with
  | .error fault => Run.fail ["failed to read " ++ path, fault.message]
  | .ok text =>
    match PolicyDocument.ofText text with
    | .error cause =>
      Run.fail ((path ++ " is not a policy document") :: (Error.serialization cause.message).chain)
    | .ok document => do
      match ← Run.ofLogged (Journal.toPolicy document) with
      | .ok policy => pure policy
      | .error cause => Run.fail (("failed to import " ++ path) :: (Error.policy cause).chain)

namespace Command

def create (family : Family) (kind : Option String) : Except UnknownTerm Policy :=
  match family, kind with
  | family, none => .ok (Policy.create family)
  | .odrl, some kind => (Vocabulary.read kind).map fun kind => .odrl (OdrlPolicy.new kind)
  | .generic, some kind => (Vocabulary.read kind).map fun kind => .generic (GenericPolicy.new kind)

def runNew (config : Config) (family : Family) (kind : Option String) : Run ExitCode :=
  match create family kind with
  | .error unknown => Run.fail [unknown.message]
  | .ok policy => do
    let document ← Run.ofLogged (Journal.canonicalize policy config.canonical)
    Run.print [document.render config.canonical.pretty]
    pure .done

def validateFile (files : Files) (path : String) : Run ExitCode := do
  let policy ← readPolicy files path
  let violations ← Run.ofLogged (Journal.validate policy)
  if violations.isEmpty then
    Run.print [path ++ ": valid"]
    pure .done
  else
    printViolations (path ++ ": " ++ violationCount violations) violations
    pure .violations

def runValidate (files : Files) : List String → Run ExitCode
  | [] => pure .done
  | path :: rest => do
    let code ← validateFile files path
    let others ← runValidate files rest
    pure (code.max others)

def deliver (files : Files) (file text : String) (out : Option String) : Run Unit :=
  match out with
  | none => Run.print [text]
  | some out =>
    match files.writeFault out with
    | some fault => Run.fail ["failed to write " ++ out, fault.message]
    | none => do
      Run.write out (text ++ "\n")
      Run.note ⟨.info, target, "Exported " ++ file ++ " to " ++ out⟩

def runExport (files : Files) (config : Config) (file : String) (out : Option String)
    (preview : Bool) : Run ExitCode := do
  let policy ← readPolicy files file
  let violations ← Run.ofLogged (Journal.validate policy)
  if violations.isEmpty || preview then
    if !violations.isEmpty then
      Run.note ⟨.debug, target, "Previewing " ++ file ++ " with " ++ violationCount violations⟩
    let document ← Run.ofLogged (Journal.canonicalize policy config.canonical)
    deliver files file (document.render config.canonical.pretty) out
    pure .done
  else
    printViolations (file ++ ": not exported, " ++ violationCount violations) violations
    pure .violations

/-- Save a policy if it is valid. A valid policy needs no random identifier: an ODRL policy has its
uid, and the ids of generic policies are counted. -/
def catalogFile (files : Files) (config : Config) (now : Instant) (store : Store)
    (path : String) : Run (ExitCode × Store) := do
  let policy ← readPolicy files path
  let violations ← Run.ofLogged (Journal.validate policy)
  if violations.isEmpty then
    match ← Run.ofLogged (Journal.saveInto store config.store.keyPrefix policy now []) with
    | (.error cause, _) => Run.fail (Error.store cause).chain
    | (.ok assigned, store) =>
      Run.note ⟨.debug, target, "Saved " ++ path ++ " as " ++ assigned.key.text⟩
      pure (.done, store)
  else
    printViolations (path ++ ": skipped, " ++ violationCount violations) violations
    pure (.violations, store)

def catalogFiles (files : Files) (config : Config) (now : Instant) (store : Store) :
    List String → Run (ExitCode × Store)
  | [] => pure (.done, store)
  | path :: rest => do
    let (code, store) ← catalogFile files config now store path
    let (others, store) ← catalogFiles files config now store rest
    pure (code.max others, store)

def catalogLine (entry : StoredPolicy) : String :=
  entry.key.text ++ "  " ++ Vocabulary.term entry.policy.family ++ "/" ++ entry.policy.kindTerm ++
    "  " ++ Timestamp.textToSecond entry.savedAt

def runCatalog (files : Files) (config : Config) (now : Instant) (paths : List String)
    (limit : Option Nat) : Run ExitCode := do
  let (code, store) ← catalogFiles files config now .empty paths
  Run.print ((store.list limit).map catalogLine)
  pure code

def runVocabulary : Option String → Run ExitCode
  | none => do
    Run.print (Vocabulary.tables.map fun table =>
      table.name ++ " (" ++ Nat.repr table.terms.length ++ " terms)")
    pure .done
  | some name =>
    match Vocabulary.table? name with
    | some terms => do
      Run.print terms
      pure .done
    | none =>
      Run.fail ["unknown vocabulary table '" ++ name ++ "', expected one of: " ++
        ", ".intercalate (Vocabulary.tables.map (·.name))]

def run (command : Command) (files : Files) (config : Config) (now : Instant) : Run ExitCode :=
  match command with
  | .newPolicy family kind => runNew config family kind
  | .validate paths => runValidate files paths
  | .exportFile file out preview => runExport files config file out preview
  | .catalog paths limit => runCatalog files config now paths limit
  | .vocabulary table => runVocabulary table

end Command

end RightsPolicy.Cli
