import RightsPolicy.Calendar.Date

namespace RightsPolicy

structure Instant where
  second : Int
  nano : Nat
  deriving DecidableEq, Repr

namespace Instant

def nanosPerSecond : Nat := 1000000000

def secondsPerDay : Nat := 86400

def le (a b : Instant) : Bool :=
  a.second < b.second || (a.second = b.second && a.nano ≤ b.nano)

def date (t : Instant) : Date :=
  Date.ofDays (t.second / secondsPerDay)

def secondOfDay (t : Instant) : Nat :=
  (t.second % secondsPerDay).toNat

def isLeapSecond (t : Instant) : Bool :=
  nanosPerSecond ≤ t.nano

def ofLocal (date : Date) (secondOfDay nano : Nat) (offset : Int) : Instant where
  second := date.toDays * secondsPerDay + secondOfDay - offset
  nano := nano

def isInRange (t : Instant) : Bool :=
  Date.leastYear ≤ t.date.year && t.date.year ≤ Date.greatestYear

/-- Move by milliseconds. A move that leaves a leap second first turns it into the second before or
after it. -/
def plusMillis? (t : Instant) (ms : Int) : Option Instant :=
  let seconds := Int.tdiv ms 1000
  let nanos := Int.tmod ms 1000 * 1000000
  let moved : Instant :=
    if t.isLeapSecond && seconds = 0 && (t.nano : Int) + nanos < 2 * nanosPerSecond then
      ⟨t.second, (t.nano + nanos).toNat⟩
    else
      let (second, nano) : Int × Int :=
        if t.isLeapSecond then
          if seconds < 0 then (t.second + 1, t.nano - nanosPerSecond)
          else (t.second, t.nano - nanosPerSecond)
        else
          (t.second, t.nano)
      let total := nano + nanos
      ⟨second + seconds + total / nanosPerSecond, (total % nanosPerSecond).toNat⟩
  if moved.isInRange then some moved else none

end Instant

end RightsPolicy
