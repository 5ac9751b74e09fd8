namespace RightsPolicy.Text

namespace Terminal

inductive State where
  | ground
  | escape
  | escapeIntermediate
  | control
  | deviceEntry
  | deviceParameter
  | deviceIntermediate
  | string
  | command
  deriving DecidableEq, Repr

def isIntermediate (c : Char) : Bool :=
  ' ' ≤ c && c ≤ '/'

def isParameter (c : Char) : Bool :=
  '0' ≤ c && c ≤ '?'

def isFinal (c : Char) : Bool :=
  '@' ≤ c && c ≤ '~'

def isLayout (c : Char) : Bool :=
  c = '\t' || c = '\n' || c = '\x0c' || c = '\r'

def isShown (c : Char) : Bool :=
  ' ' ≤ c && c ≠ '\x7f'

def holdsTerminator (c : Char) : Bool :=
  (String.utf8EncodeChar c).contains 0x9C

def afterEscape (c : Char) : State :=
  if isIntermediate c then .escapeIntermediate
  else if c = '[' then .control
  else if c = ']' then .command
  else if c = 'P' then .deviceEntry
  else if c = 'X' || c = '^' || c = '_' then .string
  else if isParameter c || isFinal c then .ground
  else .escape

def afterDeviceEntry (c : Char) : State :=
  if isIntermediate c then .deviceIntermediate
  else if c = ':' || isFinal c then .string
  else if isParameter c then .deviceParameter
  else .deviceEntry

def afterDeviceParameter (c : Char) : State :=
  if isIntermediate c then .deviceIntermediate
  else if c.isDigit || c = ';' then .deviceParameter
  else if isParameter c || isFinal c then .string
  else .deviceParameter

def State.next (state : State) (c : Char) : State :=
  match state with
  | .ground => .ground
  | .escape => afterEscape c
  | .escapeIntermediate => if isParameter c || isFinal c then .ground else .escapeIntermediate
  | .control => if isFinal c then .ground else .control
  | .deviceEntry => afterDeviceEntry c
  | .deviceParameter => afterDeviceParameter c
  | .deviceIntermediate => if isParameter c || isFinal c then .string else .deviceIntermediate
  | .string => if holdsTerminator c then .ground else .string
  | .command => if c = '\x07' then .ground else .command

def State.keeps (state : State) (c : Char) : Bool :=
  match state with
  | .ground => isShown c || isLayout c
  | .escape => isLayout c
  | .escapeIntermediate => isLayout c
  | .control => isLayout c
  | _ => false

def plainChars (state : State) : List Char → List Char
  | [] => []
  | c :: rest =>
    if c = '\x18' || c = '\x1a' then plainChars .ground rest
    else if c = '\x1b' then plainChars .escape rest
    else if state.keeps c then c :: plainChars .ground rest
    else plainChars (state.next c) rest

end Terminal

def plain (s : String) : String :=
  String.ofList (Terminal.plainChars .ground s.toList)

end RightsPolicy.Text
