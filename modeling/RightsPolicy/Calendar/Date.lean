namespace RightsPolicy

structure Date where
  year : Int
  month : Nat
  day : Nat
  deriving DecidableEq, Repr

namespace Date

def isLeapYear (year : Int) : Bool :=
  year % 4 = 0 && (year % 100 ≠ 0 || year % 400 = 0)

def daysInMonth (year : Int) (month : Nat) : Nat :=
  if month = 2 then
    if isLeapYear year then 29 else 28
  else if month = 4 ∨ month = 6 ∨ month = 9 ∨ month = 11 then
    30
  else
    31

def leastYear : Int := -262143

def greatestYear : Int := 262142

def isValid (date : Date) : Bool :=
  leastYear ≤ date.year && date.year ≤ greatestYear && 1 ≤ date.month && date.month ≤ 12 &&
    1 ≤ date.day && date.day ≤ daysInMonth date.year date.month

def epoch : Int := 719468

def toDays (date : Date) : Int :=
  let year := if date.month ≤ 2 then date.year - 1 else date.year
  let month := (date.month + 9) % 12
  let dayOfYear := (153 * month + 2) / 5 + date.day - 1
  365 * year + year / 4 - year / 100 + year / 400 + (dayOfYear : Int) - epoch

def ofMarch (year : Int) (dayOfYear : Nat) : Date :=
  let month := (5 * dayOfYear + 2) / 153
  { year := if month < 10 then year else year + 1
    month := if month < 10 then month + 3 else month - 9
    day := dayOfYear - (153 * month + 2) / 5 + 1 }

/-- A cycle of 400 years has 146097 days. It is cut into centuries, the centuries into spans of four
years and these into years, the last part of each cut being the one with the leap day. -/
def ofDays (days : Int) : Date :=
  let cycle := (days + epoch) / 146097
  let dayOfCycle := ((days + epoch) % 146097).toNat
  let century := min (dayOfCycle / 36524) 3
  let dayOfCentury := dayOfCycle - 36524 * century
  let span := dayOfCentury / 1461
  let dayOfSpan := dayOfCentury % 1461
  let yearOfSpan := min (dayOfSpan / 365) 3
  ofMarch (400 * cycle + ((100 * century + 4 * span + yearOfSpan : Nat) : Int))
    (dayOfSpan - 365 * yearOfSpan)

end Date

end RightsPolicy
