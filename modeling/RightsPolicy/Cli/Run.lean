import RightsPolicy.Log

namespace RightsPolicy.Cli

inductive Event where
  | printed (line : String)
  | logged (record : Log.Record)
  | wrote (path text : String)
  deriving DecidableEq, Repr

structure Failure where
  chain : List String
  deriving DecidableEq, Repr

structure Run (α : Type) where
  result : Except Failure α
  events : List Event

namespace Run

variable {α β : Type}

def bind (run : Run α) (next : α → Run β) : Run β :=
  match run.result with
  | .ok a => ⟨(next a).result, run.events ++ (next a).events⟩
  | .error failure => ⟨.error failure, run.events⟩

instance : Monad Run where
  pure a := ⟨.ok a, []⟩
  bind := Run.bind

def fail (chain : List String) : Run α :=
  ⟨.error ⟨chain⟩, []⟩

def print (lines : List String) : Run Unit :=
  ⟨.ok (), lines.map Event.printed⟩

def note (record : Log.Record) : Run Unit :=
  ⟨.ok (), [.logged record]⟩

def write (path text : String) : Run Unit :=
  ⟨.ok (), [.wrote path text]⟩

def ofLogged (logged : Logged α) : Run α :=
  ⟨.ok logged.value, logged.records.map Event.logged⟩

def printed (run : Run α) : List String :=
  run.events.filterMap fun
    | .printed line => some line
    | _ => none

def records (run : Run α) : List Log.Record :=
  run.events.filterMap fun
    | .logged record => some record
    | _ => none

def written (run : Run α) : List (String × String) :=
  run.events.filterMap fun
    | .wrote path text => some (path, text)
    | _ => none

end Run

end RightsPolicy.Cli
