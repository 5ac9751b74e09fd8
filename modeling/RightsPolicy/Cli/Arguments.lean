namespace RightsPolicy.Cli

inductive Argument where
  | operand (text : String)
  | separator
  | long (name : String) (value : Option String)
  | short (letters : String)
  deriving DecidableEq, Repr

def Argument.ofText (s : String) : Argument :=
  match s.toList with
  | ['-', '-'] => .separator
  | '-' :: '-' :: cs =>
    let name := cs.takeWhile (· ≠ '=')
    match cs.drop name.length with
    | [] => .long (String.ofList name) none
    | _ :: value => .long (String.ofList name) (some (String.ofList value))
  | '-' :: c :: cs => .short (String.ofList (c :: cs))
  | _ => .operand s

inductive Halt where
  | usage
  | help
  deriving DecidableEq, Repr

structure Grammar where
  settings : List String
  switches : List String
  hasOperands : Bool
  deriving Repr

structure Sorted where
  settings : List (String × String) := []
  switches : List String := []
  operands : List String := []
  deriving DecidableEq, Repr

namespace Sorted

def setting? (sorted : Sorted) (name : String) : Option String :=
  (sorted.settings.find? fun setting => setting.1 = name).map (·.2)

def hasSwitch (sorted : Sorted) (name : String) : Bool :=
  sorted.switches.contains name

def addSetting (sorted : Sorted) (name value : String) : Except Halt Sorted :=
  if (sorted.setting? name).isSome then .error .usage
  else .ok { sorted with settings := sorted.settings ++ [(name, value)] }

def addSwitch (sorted : Sorted) (name : String) : Except Halt Sorted :=
  if sorted.hasSwitch name then .error .usage
  else .ok { sorted with switches := sorted.switches ++ [name] }

def addOperands (sorted : Sorted) (operands : List String) : Sorted :=
  { sorted with operands := sorted.operands ++ operands }

end Sorted

namespace Grammar

/-- Sort arguments; also those from the first operand on, when operands do not belong here. The
value of a setting is what follows an equals sign, or else the next argument, which then must not
look like an option. -/
def sort (grammar : Grammar) (sorted : Sorted) :
    List String → Except Halt (Sorted × List String)
  | [] => .ok (sorted, [])
  | argument :: rest =>
    match Argument.ofText argument with
    | .operand text =>
      if grammar.hasOperands then grammar.sort (sorted.addOperands [text]) rest
      else .ok (sorted, argument :: rest)
    | .separator =>
      if grammar.hasOperands then .ok (sorted.addOperands rest, []) else .error .usage
    | .short letters => .error (if letters.startsWith "h" then .help else .usage)
    | .long name none =>
      if grammar.switches.contains name then do
        let sorted ← sorted.addSwitch name
        grammar.sort sorted rest
      else if grammar.settings.contains name then
        match rest with
        | [] => .error .usage
        | next :: rest =>
          match Argument.ofText next with
          | .operand value => do
            let sorted ← sorted.addSetting name value
            grammar.sort sorted rest
          | _ => .error .usage
      else
        .error (if name = "help" then .help else .usage)
    | .long name (some value) =>
      if grammar.settings.contains name then do
        let sorted ← sorted.addSetting name value
        grammar.sort sorted rest
      else
        .error .usage

end Grammar

end RightsPolicy.Cli
