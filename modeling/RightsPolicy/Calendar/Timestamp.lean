import RightsPolicy.Calendar.Instant
import RightsPolicy.Text.Blank
import RightsPolicy.Text.Digits

namespace RightsPolicy.Timestamp

def padded (width n : Nat) : List Char :=
  let digits := (Nat.repr n).toList
  List.replicate (width - digits.length) '0' ++ digits

def yearChars (year : Int) : List Char :=
  if 0 ≤ year ∧ year ≤ 9999 then
    padded 4 year.toNat
  else
    (if 0 ≤ year then '+' else '-') :: padded 4 year.natAbs

def fractionChars (nano : Nat) : List Char :=
  if nano = 0 then []
  else if nano % 1000000 = 0 then '.' :: padded 3 (nano / 1000000)
  else if nano % 1000 = 0 then '.' :: padded 6 (nano / 1000)
  else '.' :: padded 9 nano

def dateChars (date : Date) : List Char :=
  yearChars date.year ++ '-' :: padded 2 date.month ++ '-' :: padded 2 date.day

def timeChars (secondOfDay : Nat) (isLeap : Bool) : List Char :=
  padded 2 (secondOfDay / 3600) ++ ':' :: padded 2 (secondOfDay / 60 % 60) ++
    ':' :: padded 2 (secondOfDay % 60 + if isLeap then 1 else 0)

def chars (t : Instant) : List Char :=
  dateChars t.date ++ 'T' :: timeChars t.secondOfDay t.isLeapSecond ++
    fractionChars (t.nano % Instant.nanosPerSecond) ++ ['Z']

def text (t : Instant) : String :=
  String.ofList (chars t)

def textToSecond (t : Instant) : String :=
  String.ofList (dateChars t.date ++ 'T' :: timeChars t.secondOfDay t.isLeapSecond ++ ['Z'])

def digits? (width : Option Nat) (cs : List Char) : Option (List Char × List Char) :=
  let run := cs.takeWhile Char.isDigit
  let taken := match width with
    | some w => run.take w
    | none => run
  if taken.isEmpty then none else some (taken, cs.drop taken.length)

def field? (cs : List Char) : Option (Nat × List Char) :=
  (digits? (some 2) (Text.dropSpace cs)).map fun (digits, rest) => (Text.digitsValue digits, rest)

def year? (cs : List Char) : Option (Int × List Char) :=
  let signed (sign : Int) (read : List Char × List Char) : Int × List Char :=
    (sign * Text.digitsValue read.1, read.2)
  match Text.dropSpace cs with
  | '-' :: rest => (digits? none rest).map (signed (-1))
  | '+' :: rest => (digits? none rest).map (signed 1)
  | cs => (digits? (some 4) cs).map (signed 1)

def mark? (c : Char) (cs : List Char) : Option (List Char) :=
  match Text.dropSpace cs with
  | d :: rest => if d = c then some rest else none
  | [] => none

def date? (cs : List Char) : Option (Date × List Char) := do
  let (year, cs) ← year? cs
  let cs ← mark? '-' cs
  let (month, cs) ← field? cs
  let cs ← mark? '-' cs
  let (day, cs) ← field? cs
  let date : Date := ⟨year, month, day⟩
  if date.isValid then some (date, cs) else none

def fraction? (cs : List Char) : Option (Nat × List Char) :=
  match cs with
  | '.' :: rest => do
    let (digits, _) ← digits? (some 9) rest
    let nano := Text.digitsValue digits * Nat.pow 10 (9 - digits.length)
    some (nano, rest.dropWhile Char.isDigit)
  | cs => some (0, cs)

def time? (cs : List Char) : Option ((Nat × Nat) × List Char) := do
  let (hour, cs) ← field? cs
  let cs ← mark? ':' cs
  let (minute, cs) ← field? cs
  let cs ← mark? ':' cs
  let (second, cs) ← field? cs
  let (nano, cs) ← fraction? cs
  if hour ≤ 23 ∧ minute ≤ 59 ∧ second ≤ 60 then
    let start := 3600 * hour + 60 * minute
    if second = 60 then
      some ((start + 59, Instant.nanosPerSecond + nano), cs)
    else
      some ((start + second, nano), cs)
  else
    none

def twoDigits? (cs : List Char) : Option (Nat × List Char) :=
  match cs with
  | a :: b :: rest =>
    if a.isDigit && b.isDigit then some (Text.digitsValue [a, b], rest) else none
  | _ => none

def offsetSize? (cs : List Char) : Option (Int × List Char) := do
  let (hours, cs) ← twoDigits? cs
  let (minutes, cs) ← twoDigits? (cs.dropWhile fun c => c = ':' || Text.isWhiteSpace c)
  let size : Int := 3600 * hours + 60 * minutes
  if minutes ≤ 59 ∧ size < Instant.secondsPerDay then some (size, cs) else none

def offset? (cs : List Char) : Option (Int × List Char) :=
  match cs with
  | 'Z' :: rest => some (0, rest)
  | 'z' :: rest => some (0, rest)
  | '+' :: rest => offsetSize? rest
  | '-' :: rest => (offsetSize? rest).map fun (size, rest) => (-size, rest)
  | '−' :: rest => (offsetSize? rest).map fun (size, rest) => (-size, rest)
  | u :: t :: c :: rest =>
    if u.toLower = 'u' ∧ t.toLower = 't' ∧ c.toLower = 'c' then some (0, rest) else none
  | _ => none

def read? (s : String) : Option Instant := do
  let (date, cs) ← date? s.toList
  let cs ← match cs with
    | 'T' :: rest => some rest
    | 't' :: rest => some rest
    | ' ' :: rest => some rest
    | _ => none
  let ((secondOfDay, nano), cs) ← time? cs
  let (offset, cs) ← offset? (Text.dropSpace cs)
  let t := Instant.ofLocal date secondOfDay nano offset
  if (Text.dropSpace cs).isEmpty && t.isInRange then some t else none

end RightsPolicy.Timestamp
