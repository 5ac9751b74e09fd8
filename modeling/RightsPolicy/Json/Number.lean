import RightsPolicy.Json.Value
import RightsPolicy.Text.Digits

namespace RightsPolicy.Json.Number

inductive Place where
  | sign
  | whole
  | point
  | fraction
  | mark
  | exponentSign
  | exponent
  deriving DecidableEq, Repr

def Place.next? (place : Place) (c : Char) : Option Place :=
  let isMark := c = 'e' || c = 'E'
  match place with
  | .sign => if c.isDigit then some .whole else none
  | .whole =>
    if c.isDigit then some .whole
    else if c = '.' then some .point
    else if isMark then some .mark
    else none
  | .point => if c.isDigit then some .fraction else none
  | .fraction =>
    if c.isDigit then some .fraction
    else if isMark then some .mark
    else none
  | .mark =>
    if c.isDigit then some .exponent
    else if c = '+' || c = '-' then some .exponentSign
    else none
  | .exponentSign => if c.isDigit then some .exponent else none
  | .exponent => if c.isDigit then some .exponent else none

structure Parts where
  negative : Bool
  whole : List Char
  fraction : Option (List Char)
  exponent : Option Int
  deriving DecidableEq, Repr

def whole? (cs : List Char) : Option (List Char × List Char) :=
  match Text.digits? cs with
  | some ('0' :: _ :: _, _) => none
  | other => other

def fraction? (cs : List Char) : Option (Option (List Char) × List Char) :=
  match cs with
  | '.' :: rest => (Text.digits? rest).map fun (digits, rest) => (some digits, rest)
  | cs => some (none, cs)

def exponent? (cs : List Char) : Option (Option Int) :=
  let ofDigits (sign : Int) (cs : List Char) : Option (Option Int) :=
    match Text.digits? cs with
    | some (digits, []) => some (some (sign * Text.digitsValue digits))
    | _ => none
  let afterMark (cs : List Char) : Option (Option Int) :=
    match cs with
    | '+' :: rest => ofDigits 1 rest
    | '-' :: rest => ofDigits (-1) rest
    | cs => ofDigits 1 cs
  match cs with
  | [] => some none
  | 'e' :: rest => afterMark rest
  | 'E' :: rest => afterMark rest
  | _ => none

def parts? (cs : List Char) : Option Parts := do
  let (negative, cs) := match cs with
    | '-' :: rest => (true, rest)
    | cs => (false, cs)
  let (whole, cs) ← whole? cs
  let (fraction, cs) ← fraction? cs
  let exponent ← exponent? cs
  some ⟨negative, whole, fraction, exponent⟩

def fitsWord (n : Nat) : Bool :=
  n < UInt64.size

def takeDigits (significand : Nat) : List Char → Nat × List Char
  | [] => (significand, [])
  | c :: rest =>
    let next := 10 * significand + Text.digitValue c
    if fitsWord next then takeDigits next rest else (significand, c :: rest)

/-- Each whole digit that is left out counts as a power of ten, each fraction digit that is taken
as a negative one. -/
def decimal? (parts : Parts) : Option Magnitude :=
  let fraction := parts.fraction.getD []
  let (significand, wholeLeft) := takeDigits 0 parts.whole
  let (significand, fractionLeft) := takeDigits significand fraction
  let taken := fraction.length - fractionLeft.length
  Magnitude.ofDecimal? significand (parts.exponent.getD 0 + wholeLeft.length - taken)

def integer? (parts : Parts) : Option Int :=
  let value := Text.digitsValue parts.whole
  if parts.fraction.isSome || parts.exponent.isSome then none
  else if parts.negative then
    if 0 < value ∧ value ≤ UInt64.size / 2 then some (-value) else none
  else
    if fitsWord value then some value else none

def ofParts (parts : Parts) : Json :=
  match integer? parts with
  | some n => .integer n
  | none =>
    match decimal? parts with
    | some x => .decimal ⟨parts.negative, x⟩
    | none => .unreadable

def read? (cs : List Char) : Option Json :=
  (parts? cs).map ofParts

end RightsPolicy.Json.Number
