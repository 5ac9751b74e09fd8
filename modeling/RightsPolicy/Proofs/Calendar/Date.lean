import Mathlib.Tactic.IntervalCases
import Mathlib.Tactic.Ring
import RightsPolicy.Calendar.Date

namespace RightsPolicy.Date

theorem toDays_ofMarch (year : Int) {dayOfYear : Nat} (h : dayOfYear ≤ 365) :
    (ofMarch year dayOfYear).toDays =
      365 * year + year / 4 - year / 100 + year / 400 + dayOfYear - epoch := by
  obtain ⟨month, hmonth⟩ : ∃ month, (5 * dayOfYear + 2) / 153 = month := ⟨_, rfl⟩
  have hle : month ≤ 11 := by omega
  have hstart : (153 * month + 2) / 5 ≤ dayOfYear := by omega
  simp only [toDays, ofMarch, hmonth]
  by_cases hlate : month < 10
  · have hback : (month + 3 + 9) % 12 = month := by omega
    have hyear : ¬ month + 3 ≤ 2 := by omega
    simp only [hlate, hback, hyear, ↓reduceIte]
    omega
  · have hback : (month - 9 + 9) % 12 = month := by omega
    have hyear : month - 9 ≤ 2 := by omega
    simp only [hlate, hback, hyear, ↓reduceIte]
    have hsame : year + 1 - 1 = year := by omega
    rw [hsame]
    omega

theorem month_ofMarch (year : Int) {dayOfYear : Nat} (h : dayOfYear ≤ 365) :
    1 ≤ (ofMarch year dayOfYear).month ∧ (ofMarch year dayOfYear).month ≤ 12 := by
  simp only [ofMarch]
  split <;> omega

theorem day_ofMarch {year : Int} {dayOfYear : Nat} (h : dayOfYear ≤ 365)
    (hleap : dayOfYear = 365 → isLeapYear (year + 1) = true) :
    1 ≤ (ofMarch year dayOfYear).day ∧
      (ofMarch year dayOfYear).day ≤
        daysInMonth (ofMarch year dayOfYear).year (ofMarch year dayOfYear).month := by
  obtain ⟨month, hmonth⟩ : ∃ month, (5 * dayOfYear + 2) / 153 = month := ⟨_, rfl⟩
  have hle : month ≤ 11 := by omega
  refine ⟨by simp [ofMarch], ?_⟩
  simp only [ofMarch, hmonth]
  by_cases hfebruary : month = 11
  · simp only [hfebruary, daysInMonth, Nat.reduceLT, Nat.reduceSub, ↓reduceIte]
    split
    · omega
    · next hcommon =>
      have hne : dayOfYear ≠ 365 := fun hlast => hcommon (hleap hlast)
      omega
  · have hlt : month ≤ 10 := by omega
    interval_cases month <;> simp [daysInMonth] <;> omega

structure Cut where
  cycle : Int
  century : Nat
  span : Nat
  yearOfSpan : Nat
  dayOfYear : Nat
  century_le : century ≤ 3
  span_le : span ≤ 24
  yearOfSpan_le : yearOfSpan ≤ 3
  dayOfYear_le : dayOfYear ≤ 365
  leap : dayOfYear = 365 → yearOfSpan = 3 ∧ (span = 24 → century = 3)

namespace Cut

variable (cut : Cut)

def year : Int :=
  400 * cut.cycle + ((100 * cut.century + 4 * cut.span + cut.yearOfSpan : Nat) : Int)

def days : Int :=
  146097 * cut.cycle +
    ((36524 * cut.century + 1461 * cut.span + 365 * cut.yearOfSpan + cut.dayOfYear : Nat) : Int)

theorem days_eq : 365 * cut.year + cut.year / 4 - cut.year / 100 + cut.year / 400 +
    cut.dayOfYear = cut.days := by
  have hcentury := cut.century_le
  have hspan := cut.span_le
  have hyear := cut.yearOfSpan_le
  have hfour : cut.year / 4 = 100 * cut.cycle + 25 * cut.century + cut.span := by
    simp only [year]
    omega
  have hhundred : cut.year / 100 = 4 * cut.cycle + cut.century := by
    simp only [year]
    omega
  have hfourHundred : cut.year / 400 = cut.cycle := by
    simp only [year]
    omega
  rw [hfour, hhundred, hfourHundred]
  simp only [year, days]
  push_cast
  ring

theorem isLeapYear_succ (h : cut.dayOfYear = 365) : isLeapYear (cut.year + 1) = true := by
  obtain ⟨hlast, hcentury⟩ := cut.leap h
  have hspan := cut.span_le
  have hfour : (cut.year + 1) % 4 = 0 := by
    simp only [year, hlast]
    omega
  have hyear : (cut.year + 1) % 100 ≠ 0 ∨ (cut.year + 1) % 400 = 0 := by
    by_cases hfull : cut.span = 24
    · right
      simp only [year, hlast, hfull, hcentury hfull]
      omega
    · left
      simp only [year, hlast]
      omega
  simpa [isLeapYear, hfour] using hyear

end Cut

theorem exists_cut (days : Int) :
    ∃ cut : Cut, cut.days = days + epoch ∧ ofDays days = ofMarch cut.year cut.dayOfYear := by
  have hday : ((days + epoch) % 146097).toNat < 146097 := by omega
  have hcycle :
      days + epoch = 146097 * ((days + epoch) / 146097) + ((days + epoch) % 146097).toNat := by
    omega
  generalize hc : (days + epoch) / 146097 = cycle at hcycle
  generalize hd : ((days + epoch) % 146097).toNat = dayOfCycle at hday hcycle
  obtain ⟨century, hcentury⟩ : ∃ century, min (dayOfCycle / 36524) 3 = century := ⟨_, rfl⟩
  have hcenturyLe : century ≤ 3 := by omega
  -- only the last century of a cycle has one more day, the leap day that ends the cycle
  have hofCentury : dayOfCycle - 36524 * century < 36524 ∨
      century = 3 ∧ dayOfCycle - 36524 * century = 36524 := by
    omega
  obtain ⟨dayOfCentury, hdayOfCentury⟩ :
      ∃ dayOfCentury, dayOfCycle - 36524 * century = dayOfCentury := ⟨_, rfl⟩
  have hback : dayOfCycle = 36524 * century + dayOfCentury := by omega
  rw [hdayOfCentury] at hofCentury
  obtain ⟨yearOfSpan, hyear⟩ : ∃ year, min (dayOfCentury % 1461 / 365) 3 = year := ⟨_, rfl⟩
  refine ⟨⟨cycle, century, dayOfCentury / 1461, yearOfSpan,
    dayOfCentury % 1461 - 365 * yearOfSpan, hcenturyLe, ?_, ?_, ?_, ?_⟩, ?_, ?_⟩
  · omega
  · omega
  · omega
  · intro hleap
    have hlast : yearOfSpan = 3 := by omega
    have hfull : dayOfCentury / 1461 = 24 → century = 3 := by omega
    exact ⟨hlast, hfull⟩
  · simp only [Cut.days]
    omega
  · simp only [ofDays, Cut.year, hc, hd, hcentury, hdayOfCentury, hyear]

theorem toDays_ofDays (days : Int) : (ofDays days).toDays = days := by
  obtain ⟨cut, hdays, hdate⟩ := exists_cut days
  rw [hdate, toDays_ofMarch cut.year cut.dayOfYear_le, cut.days_eq, hdays]
  omega

theorem isValid_ofDays {days : Int} (hleast : leastYear ≤ (ofDays days).year)
    (hgreatest : (ofDays days).year ≤ greatestYear) : (ofDays days).isValid = true := by
  obtain ⟨cut, -, hdate⟩ := exists_cut days
  have hmonth := month_ofMarch cut.year cut.dayOfYear_le
  have hday := day_ofMarch cut.dayOfYear_le cut.isLeapYear_succ
  rw [← hdate] at hmonth hday
  simp [isValid, hleast, hgreatest, hmonth, hday]

end RightsPolicy.Date
