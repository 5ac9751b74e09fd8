import RightsPolicy.Cli.Command
import RightsPolicy.Config.Load
import RightsPolicy.Text.Terminal

namespace RightsPolicy.Cli

structure Outcome where
  code : ExitCode
  stdout : String
  stderr : String
  written : List (String × String)
  deriving DecidableEq, Repr

def unlines (lines : List String) : String :=
  String.join (lines.map (· ++ "\n"))

/-- A record as a line of the log: the label has five places, and further lines of the message are
indented. What would steer a terminal is left out, the end of the line with it if a sequence goes on
that far. -/
def logLine (record : Log.Record) : String :=
  let label := record.level.label
  Text.plain ("[" ++ label ++ String.ofList (List.replicate (5 - label.length) ' ') ++ " " ++
    record.target ++ "] " ++ record.message.replace "\n" "\n    " ++ "\n")

def errorLine (failure : Failure) : String :=
  "error: " ++ ": ".intercalate failure.chain

def Outcome.ofRun (level : Log.Level) (run : Run ExitCode) : Outcome :=
  let records := run.records.filter fun record => level.admits record.level
  let logged := String.join (records.map logLine)
  { code :=
      match run.result with
      | .ok code => code
      | .error _ => .failed
    stdout := unlines run.printed
    stderr :=
      match run.result with
      | .ok _ => logged
      | .error failure => logged ++ unlines [errorLine failure]
    written := run.written }

namespace Options

def overrides (options : Options) : ConfigOverrides where
  logLevel := options.logLevel
  pretty := if options.compact then some false else none
  defaultProfile := options.profile

def configuration (options : Options) (files : Files) : Except Failure Config :=
  let source : Option Config.Source := options.config.map fun path => ⟨path, files.read path⟩
  match (Config.load source).value with
  | .error cause => .error ⟨"failed to load configuration" :: (Error.config cause).chain⟩
  | .ok loaded =>
    let config := loaded.merge options.overrides
    match config.validate with
    | .error cause => .error ⟨"invalid command-line options" :: (Error.config cause).chain⟩
    | .ok () => .ok config

end Options

namespace Invocation

def run (invocation : Invocation) (files : Files) (now : Instant) : Outcome :=
  match invocation.options.configuration files with
  | .error failure => Outcome.ofRun default ⟨.error failure, []⟩
  | .ok config => Outcome.ofRun config.logging.level (invocation.command.run files config now)

def paths (invocation : Invocation) : List String :=
  invocation.options.config.toList ++
    match invocation.command with
    | .validate files => files
    | .exportFile file _ _ => [file]
    | .catalog files _ => files
    | .newPolicy _ _ => []
    | .vocabulary _ => []

end Invocation

end RightsPolicy.Cli
