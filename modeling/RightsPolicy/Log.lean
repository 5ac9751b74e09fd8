import RightsPolicy.Error
import RightsPolicy.Text.LowerCase

namespace RightsPolicy

namespace Log

inductive Level where
  | trace
  | debug
  | info
  | warning
  | error
  deriving DecidableEq, Repr

namespace Level

instance : Inhabited Level where
  default := .info

def severity : Level → Nat
  | .trace => 0
  | .debug => 1
  | .info => 2
  | .warning => 3
  | .error => 4

instance : Ord Level where
  compare a b := compare a.severity b.severity

def name : Level → String
  | .trace => "TRACE"
  | .debug => "DEBUG"
  | .info => "INFO"
  | .warning => "WARNING"
  | .error => "ERROR"

def label : Level → String
  | .warning => "WARN"
  | level => level.name

def term : Level → String
  | .trace => "trace"
  | .debug => "debug"
  | .info => "info"
  | .warning => "warning"
  | .error => "error"

def ofTerm? (s : String) : Option Level :=
  if s = "trace" then some .trace
  else if s = "debug" then some .debug
  else if s = "info" then some .info
  else if s = "warning" ∨ s = "warn" then some .warning
  else if s = "error" then some .error
  else none

def read (s : String) : Except ConfigError Level :=
  let lowered := Text.lowerCase s
  match if lowered = "err" then some .error else ofTerm? lowered with
  | some level => .ok level
  | none => .error (.invalid ("unknown log level '" ++ lowered ++ "'"))

def admits (level other : Level) : Bool :=
  level.severity ≤ other.severity

end Level

structure Record where
  level : Level
  target : String
  message : String
  deriving DecidableEq, Repr

def Record.event (level : Level) (target message : String) (details : List (String × String)) :
    Record where
  level := level
  target := target
  message :=
    "[" ++ target ++ "] " ++ message ++ ": " ++
      " ".intercalate (details.map fun detail => detail.1 ++ "=" ++ detail.2)

end Log

structure Logged (α : Type) where
  value : α
  records : List Log.Record := []
  deriving Repr

namespace Logged

def map {α β : Type} (f : α → β) (x : Logged α) : Logged β :=
  ⟨f x.value, x.records⟩

def bind {α β : Type} (x : Logged α) (f : α → Logged β) : Logged β :=
  let y := f x.value
  ⟨y.value, x.records ++ y.records⟩

instance : Monad Logged where
  pure a := ⟨a, []⟩
  map := Logged.map
  bind := Logged.bind

def note (record : Log.Record) : Logged Unit :=
  ⟨(), [record]⟩

def seen {α : Type} (x : Logged α) (level : Log.Level) : List Log.Record :=
  x.records.filter fun record => level.admits record.level

end Logged

end RightsPolicy
