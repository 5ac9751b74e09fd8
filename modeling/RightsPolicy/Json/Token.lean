import RightsPolicy.Json.Number
import RightsPolicy.Json.Quoted

namespace RightsPolicy.Json

inductive Token where
  | openArray
  | closeArray
  | openObject
  | closeObject
  | comma
  | colon
  | scalar (value : Json)
  | surrogate
  | bad
  deriving Repr

namespace Token

def ofQuoted (raw : List Char) : Token :=
  match Quoted.units? raw with
  | some units =>
    match Quoted.join? units with
    | some cs => .scalar (.text (String.ofList cs))
    | none => .surrogate
  | none => .bad

def ofNumber (cs : List Char) : Token :=
  match Number.read? cs with
  | some value => .scalar value
  | none => .bad

end Token

inductive Scan where
  | between
  | quoted (raw : List Char) (escaped : Bool)
  | word (value : Json) (letters : List Char)
  | number (cs : List Char) (place : Number.Place)
  | stopped

namespace Scan

def isBlank (c : Char) : Bool :=
  c = ' ' || c = '\t' || c = '\n' || c = '\r'

def start (c : Char) : List Token × Scan :=
  if isBlank c then ([], .between)
  else if c = '"' then ([], .quoted [] false)
  else if c = '[' then ([.openArray], .between)
  else if c = ']' then ([.closeArray], .between)
  else if c = '{' then ([.openObject], .between)
  else if c = '}' then ([.closeObject], .between)
  else if c = ',' then ([.comma], .between)
  else if c = ':' then ([.colon], .between)
  else if c = '-' then ([], .number [c] .sign)
  else if c.isDigit then ([], .number [c] .whole)
  else if c = 'n' then ([], .word .null ['u', 'l', 'l'])
  else if c = 't' then ([], .word (.bool true) ['r', 'u', 'e'])
  else if c = 'f' then ([], .word (.bool false) ['a', 'l', 's', 'e'])
  else ([.bad], .stopped)

def step (state : Scan) (c : Char) : List Token × Scan :=
  match state with
  | .between => start c
  | .quoted raw true => ([], .quoted (c :: raw) false)
  | .quoted raw false =>
    if c = '"' then ([.ofQuoted raw.reverse], .between)
    else ([], .quoted (c :: raw) (c = '\\'))
  | .word value [letter] =>
    if c = letter then ([.scalar value], .between) else ([.bad], .stopped)
  | .word value (letter :: letters) =>
    if c = letter then ([], .word value letters) else ([.bad], .stopped)
  | .word _ [] => ([.bad], .stopped)
  | .number cs place =>
    match place.next? c with
    | some place => ([], .number (c :: cs) place)
    | none => (.ofNumber cs.reverse :: (start c).1, (start c).2)
  | .stopped => ([], .stopped)

def finish : Scan → List Token
  | .between => []
  | .quoted _ _ => [.bad]
  | .word _ _ => [.bad]
  | .number cs _ => [.ofNumber cs.reverse]
  | .stopped => []

def run (state : Scan) : List Char → List Token
  | [] => state.finish
  | c :: rest => (state.step c).1 ++ (state.step c).2.run rest

end Scan

def tokens (cs : List Char) : List Token :=
  Scan.between.run cs

end RightsPolicy.Json
