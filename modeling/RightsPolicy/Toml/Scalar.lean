import RightsPolicy.Calendar.Date
import RightsPolicy.Decimal.Binary64
import RightsPolicy.Text.Digits
import RightsPolicy.Toml.Value

namespace RightsPolicy.Toml.Scalar

def isWordPart (c : Char) : Bool :=
  c.isAlphanum || c = '+' || c = '-' || c = '_' || c = '.' || c = ':'

def spacedDigits? (isDigit : Char → Bool) : List Char → Option (List Char)
  | [] => none
  | [c] => if isDigit c then some [c] else none
  | c :: '_' :: rest => if isDigit c then (spacedDigits? isDigit rest).map (c :: ·) else none
  | c :: rest => if isDigit c then (spacedDigits? isDigit rest).map (c :: ·) else none

def decimalDigits? (cs : List Char) : Option (List Char) :=
  spacedDigits? Char.isDigit cs

def takeSign : List Char → Bool × List Char
  | '-' :: rest => (true, rest)
  | '+' :: rest => (false, rest)
  | cs => (false, cs)

def wholeDigits? (cs : List Char) : Option (List Char) :=
  match decimalDigits? cs with
  | some ('0' :: _ :: _) => none
  | other => other

def signLimit : Nat := UInt64.size / 2

def isDecimalInteger (word : List Char) : Bool :=
  let (negative, cs) := takeSign word
  match wholeDigits? cs with
  | some digits =>
    let value := Text.digitsValue digits
    if negative then value ≤ signLimit else value < signLimit
  | none => false

def isIntegerInBase (base : Nat) (cs : List Char) : Bool :=
  match spacedDigits? (fun c => (Text.hexValue? c).any (· < base)) cs with
  | some digits =>
    digits.foldl (fun n c => base * n + (Text.hexValue? c).getD 0) 0 < signLimit
  | none => false

def isInteger : List Char → Bool
  | '0' :: 'x' :: rest => isIntegerInBase 16 rest
  | '0' :: 'o' :: rest => isIntegerInBase 8 rest
  | '0' :: 'b' :: rest => isIntegerInBase 2 rest
  | word => isDecimalInteger word

def isFinite (digits : List Char) (power : Int) : Bool :=
  let digits := digits.dropWhile (· = '0')
  let leading := power + digits.length
  if digits.isEmpty || leading < 300 then true
  else if 400 < leading then false
  else (Magnitude.nearest? (Text.digitsValue digits * Nat.pow 10 power.toNat)
    (Nat.pow 10 (-power).toNat)).isSome

def exponent? : List Char → Option Int
  | [] => some 0
  | _ :: rest =>
    let (negative, cs) := takeSign rest
    (decimalDigits? cs).map fun digits =>
      let size : Int := Text.digitsValue digits
      if negative then -size else size

/-- A whole number with a fraction, an exponent or both, or infinity or no number by their names. A
positive number must not round to infinity. -/
def isFloat (word : List Char) : Bool :=
  let (negative, cs) := takeSign word
  let isExponentMark (c : Char) : Bool := c = 'e' || c = 'E'
  let mantissa := cs.takeWhile fun c => !isExponentMark c
  let whole := mantissa.takeWhile (· ≠ '.')
  let fraction? : Option (List Char) :=
    match mantissa.drop whole.length with
    | [] => some []
    | _ :: rest => decimalDigits? rest
  if cs = ['i', 'n', 'f'] || cs = ['n', 'a', 'n'] then
    true
  else
    match wholeDigits? whole, fraction?, exponent? (cs.drop mantissa.length) with
    | some digits, some fraction, some power =>
      whole.length < cs.length &&
        (negative || isFinite (digits ++ fraction) (power - fraction.length))
    | _, _, _ => false

def twoDigits? : List Char → Option Nat
  | [a, b] => if a.isDigit && b.isDigit then some (Text.digitsValue [a, b]) else none
  | _ => none

def isHour (cs : List Char) : Bool :=
  (twoDigits? cs).any (· ≤ 23)

def isMinute (cs : List Char) : Bool :=
  (twoDigits? cs).any (· ≤ 59)

def isSecond (cs : List Char) : Bool :=
  (twoDigits? (cs.take 2)).any (· ≤ 60) &&
    match cs.drop 2 with
    | [] => true
    | '.' :: fraction => !fraction.isEmpty && fraction.all Char.isDigit
    | _ => false

def isTime : List Char → Bool
  | a :: b :: ':' :: c :: d :: ':' :: second => isHour [a, b] && isMinute [c, d] && isSecond second
  | _ => false

def isDate : List Char → Bool
  | y₁ :: y₂ :: y₃ :: y₄ :: '-' :: m₁ :: m₂ :: '-' :: day =>
    let year := [y₁, y₂, y₃, y₄]
    match twoDigits? [m₁, m₂], twoDigits? day with
    | some month, some day =>
      year.all Char.isDigit && Date.isValid ⟨Text.digitsValue year, month, day⟩
    | _, _ => false
  | _ => false

def isOffset : List Char → Bool
  | ['Z'] => true
  | ['z'] => true
  | [sign, a, b, ':', c, d] => (sign = '+' || sign = '-') && isHour [a, b] && isMinute [c, d]
  | _ => false

def isZonedTime (cs : List Char) : Bool :=
  let time := cs.takeWhile fun c => c.isDigit || c = ':' || c = '.'
  let offset := cs.drop time.length
  isTime time && (offset.isEmpty || isOffset offset)

def isMoment (word : List Char) : Bool :=
  isTime word ||
    (isDate (word.take 10) &&
      match word.drop 10 with
      | [] => true
      | delimiter :: time =>
        (delimiter = 'T' || delimiter = 't' || delimiter = ' ') && isZonedTime time)

def takeWord (cs : List Char) : List Char × List Char :=
  let word := cs.takeWhile isWordPart
  let rest := cs.drop word.length
  match rest with
  | ' ' :: c :: _ =>
    if isDate word && c.isDigit then
      let time := (rest.drop 1).takeWhile isWordPart
      (word ++ ' ' :: time, rest.drop (time.length + 1))
    else
      (word, rest)
  | _ => (word, rest)

def ofWord? (word : List Char) : Option Toml :=
  if word = ['t', 'r', 'u', 'e'] then some (.flag true)
  else if word = ['f', 'a', 'l', 's', 'e'] then some (.flag false)
  else if isMoment word then some .moment
  else if isFloat word || isInteger word then some .number
  else none

def read? (cs : List Char) : Option (Toml × List Char) :=
  let (word, rest) := takeWord cs
  (ofWord? word).map fun value => (value, rest)

end RightsPolicy.Toml.Scalar
