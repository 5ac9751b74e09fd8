import Std.Time.DateTime.Timestamp
import RightsPolicy.Cli.Program

namespace RightsPolicy.Cli

def help : String :=
  unlines
    ["Author, check and export rights-expression policies",
      "",
      "Usage: covenant [OPTIONS] <COMMAND>",
      "",
      "Commands:",
      "  new       Print the canonical skeleton of a new policy",
      "  validate  Check policy documents for structural violations",
      "  export    Export a policy document in canonical form",
      "  catalog   Save valid policies into a store and list its entries",
      "  vocab     List vocabulary tables and their terms",
      "  help      Print this message",
      "",
      "Options:",
      "      --config <CONFIG>        Path to a TOML configuration file",
      "      --log-level <LOG_LEVEL>  Minimum log level (trace, debug, info, warn, error)",
      "      --profile <PROFILE>      Profile IRI written into ODRL documents that declare none",
      "      --compact                Emit compact JSON regardless of configuration",
      "  -h, --help                   Print help"]

def errorNumber? : IO.Error → Option Nat
  | .noFileOrDirectory _ code _ => some (number code)
  | .permissionDenied _ code _ => some (number code)
  | .inappropriateType _ code _ => some (number code)
  | .invalidArgument _ code _ => some (number code)
  | _ => none
where
  number (code : UInt32) : Nat :=
    if code < 0x80000000 then code.toNat else (0 - code).toNat

def faultOf (e : IO.Error) : FileFault :=
  ((errorNumber? e).bind FileFault.ofNumber?).getD (.other (toString e))

def readFile (path : String) : IO (Except FileFault String) := do
  match ← (IO.FS.readBinFile path).toBaseIO with
  | .error e => return .error (faultOf e)
  | .ok bytes =>
    match String.fromUTF8? bytes with
    | some text => return .ok text
    | none => return .error .notText

def currentInstant : IO Instant := do
  let now ← Std.Time.Timestamp.now
  let nanos := now.toNanosecondsSinceUnixEpoch.val
  return ⟨nanos / Instant.nanosPerSecond, (nanos % Instant.nanosPerSecond).toNat⟩

def writeFiles : List (String × String) → IO (Option FileFault)
  | [] => return none
  | (path, text) :: rest => do
    match ← (IO.FS.writeFile path text).toBaseIO with
    | .error e => return some (faultOf e)
    | .ok () => writeFiles rest

def perform (invocation : Invocation) : IO Outcome := do
  let now ← currentInstant
  let contents ← invocation.paths.mapM fun path => do
    let content ← readFile path
    return (path, content)
  let read (path : String) : Except FileFault String :=
    ((contents.find? fun entry => entry.1 == path).map (·.2)).getD (.error .absent)
  let outcome := invocation.run ⟨read, fun _ => none⟩ now
  match ← writeFiles outcome.written with
  | none => return outcome
  | some fault => return invocation.run ⟨read, fun _ => some fault⟩ now

end RightsPolicy.Cli

open RightsPolicy.Cli

def main (arguments : List String) : IO UInt32 := do
  match Invocation.ofArguments arguments with
  | .error .help =>
    IO.print help
    return 0
  | .error .usage =>
    IO.eprint ("error: the arguments were not understood\n\n" ++ help)
    return 2
  | .ok invocation =>
    let outcome ← perform invocation
    IO.print outcome.stdout
    IO.eprint outcome.stderr
    return UInt32.ofNat outcome.code.value
