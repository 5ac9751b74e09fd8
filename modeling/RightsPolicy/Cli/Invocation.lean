import RightsPolicy.Cli.Arguments
import RightsPolicy.Config.Basic
import RightsPolicy.Vocabulary.Family

namespace RightsPolicy.Cli

structure Options where
  config : Option String
  logLevel : Option Log.Level
  profile : Option String
  compact : Bool
  deriving DecidableEq, Repr

inductive Command where
  | newPolicy (family : Family) (kind : Option String)
  | validate (files : List String)
  | exportFile (file : String) (out : Option String) (preview : Bool)
  | catalog (files : List String) (limit : Option Nat)
  | vocabulary (table : Option String)
  deriving DecidableEq, Repr

structure Invocation where
  options : Options
  command : Command
  deriving DecidableEq, Repr

def valueOf {α : Type} (sorted : Sorted) (name : String) (read : String → Option α) :
    Except Halt (Option α) :=
  match sorted.setting? name with
  | none => .ok none
  | some text =>
    match read text with
    | some value => .ok (some value)
    | none => .error .usage

def path? (s : String) : Option String :=
  if s = "" then none else some s

def logLevel? (s : String) : Option Log.Level :=
  (Log.Level.read s).toOption

def count? (s : String) : Option Nat :=
  let digits :=
    match s.toList with
    | '+' :: rest => rest
    | cs => cs
  match Text.digits? digits with
  | some (digits, []) =>
    let count := Text.digitsValue digits
    if count < UInt64.size then some count else none
  | _ => none

namespace Options

def settings : List String := ["config", "log-level", "profile"]

def switches : List String := ["compact"]

def ofSorted (sorted : Sorted) : Except Halt Options := do
  let config ← valueOf sorted "config" path?
  let logLevel ← valueOf sorted "log-level" logLevel?
  let profile ← valueOf sorted "profile" some
  .ok ⟨config, logLevel, profile, sorted.hasSwitch "compact"⟩

def laidOver (inner outer : Options) : Options where
  config := inner.config <|> outer.config
  logLevel := inner.logLevel <|> outer.logLevel
  profile := inner.profile <|> outer.profile
  compact := inner.compact || outer.compact

end Options

namespace Command

def sort (settings switches : List String) (arguments : List String) : Except Halt Sorted :=
  let grammar : Grammar :=
    ⟨Options.settings ++ settings, Options.switches ++ switches, true⟩
  (grammar.sort {} arguments).map (·.1)

def paths (operands : List String) : Except Halt (List String) :=
  operands.mapM fun operand =>
    match path? operand with
    | some path => .ok path
    | none => .error .usage

def newPolicy? (arguments : List String) : Except Halt (Sorted × Command) := do
  let sorted ← sort ["family", "kind"] [] arguments
  let family ← valueOf sorted "family" Vocabulary.ofTerm?
  match family, sorted.operands with
  | some family, [] => .ok (sorted, .newPolicy family (sorted.setting? "kind"))
  | _, _ => .error .usage

def validate? (arguments : List String) : Except Halt (Sorted × Command) := do
  let sorted ← sort [] [] arguments
  let files ← paths sorted.operands
  if files.isEmpty then .error .usage else .ok (sorted, .validate files)

def exportFile? (arguments : List String) : Except Halt (Sorted × Command) := do
  let sorted ← sort ["out"] ["preview"] arguments
  let out ← valueOf sorted "out" path?
  let files ← paths sorted.operands
  match files with
  | [file] => .ok (sorted, .exportFile file out (sorted.hasSwitch "preview"))
  | _ => .error .usage

def catalog? (arguments : List String) : Except Halt (Sorted × Command) := do
  let sorted ← sort ["limit"] [] arguments
  let limit ← valueOf sorted "limit" count?
  let files ← paths sorted.operands
  if files.isEmpty then .error .usage else .ok (sorted, .catalog files limit)

def vocabulary? (arguments : List String) : Except Halt (Sorted × Command) := do
  let sorted ← sort [] [] arguments
  match sorted.operands with
  | [] => .ok (sorted, .vocabulary none)
  | [table] => .ok (sorted, .vocabulary (some table))
  | _ => .error .usage

def ofArguments (name : String) (arguments : List String) : Except Halt (Sorted × Command) :=
  if name = "new" then newPolicy? arguments
  else if name = "validate" then validate? arguments
  else if name = "export" then exportFile? arguments
  else if name = "catalog" then catalog? arguments
  else if name = "vocab" then vocabulary? arguments
  else .error (if name = "help" then .help else .usage)

end Command

namespace Invocation

def ofArguments (arguments : List String) : Except Halt Invocation := do
  let grammar : Grammar := ⟨Options.settings, Options.switches, false⟩
  let (sorted, rest) ← grammar.sort {} arguments
  let outer ← Options.ofSorted sorted
  match rest with
  | [] => .error .usage
  | name :: rest =>
    let (sorted, command) ← Command.ofArguments name rest
    let inner ← Options.ofSorted sorted
    .ok ⟨inner.laidOver outer, command⟩

end Invocation

end RightsPolicy.Cli
