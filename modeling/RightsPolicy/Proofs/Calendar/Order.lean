import RightsPolicy.Calendar.Date
import Mathlib.Tactic.IntervalCases

namespace RightsPolicy.Date

structure InCalendar (date : Date) : Prop where
  month_pos : 1 ≤ date.month
  month_le : date.month ≤ 12
  day_pos : 1 ≤ date.day
  day_le : date.day ≤ daysInMonth date.year date.month

instance (date : Date) : Decidable date.InCalendar :=
  decidable_of_iff (1 ≤ date.month ∧ date.month ≤ 12 ∧ 1 ≤ date.day ∧
      date.day ≤ daysInMonth date.year date.month)
    ⟨fun ⟨hpos, hle, hdayPos, hdayLe⟩ => ⟨hpos, hle, hdayPos, hdayLe⟩,
      fun ⟨hpos, hle, hdayPos, hdayLe⟩ => ⟨hpos, hle, hdayPos, hdayLe⟩⟩

theorem inCalendar_of_isValid {date : Date} (h : date.isValid = true) : date.InCalendar := by
  simp only [isValid, Bool.and_eq_true, decide_eq_true_eq] at h
  obtain ⟨⟨⟨⟨-, hmonth⟩, hmonthLe⟩, hday⟩, hdayLe⟩ := h
  exact ⟨hmonth, hmonthLe, hday, hdayLe⟩

def next (date : Date) : Date :=
  if date.day < daysInMonth date.year date.month then ⟨date.year, date.month, date.day + 1⟩
  else if date.month < 12 then ⟨date.year, date.month + 1, 1⟩
  else ⟨date.year + 1, 1, 1⟩

def previous (date : Date) : Date :=
  if 1 < date.day then ⟨date.year, date.month, date.day - 1⟩
  else if 1 < date.month then
    ⟨date.year, date.month - 1, daysInMonth date.year (date.month - 1)⟩
  else ⟨date.year - 1, 12, 31⟩

theorem daysInMonth_pos (year : Int) (month : Nat) : 1 ≤ daysInMonth year month := by
  unfold daysInMonth
  split
  · split <;> decide
  · split <;> decide

theorem daysInMonth_le (year : Int) (month : Nat) : daysInMonth year month ≤ 31 := by
  unfold daysInMonth
  split
  · split <;> decide
  · split <;> decide

def monthStart (year : Int) (month : Nat) : Int :=
  toDays ⟨year, month, 1⟩

theorem toDays_eq (date : Date) (h : 1 ≤ date.day) :
    date.toDays = monthStart date.year date.month + (date.day - 1) := by
  simp only [monthStart, toDays]
  omega

theorem monthStart_march (year : Int) :
    monthStart year 3 = monthStart year 2 + daysInMonth year 2 := by
  have hleap : isLeapYear year = true ↔ year % 4 = 0 ∧ (year % 100 ≠ 0 ∨ year % 400 = 0) := by
    simp [isLeapYear]
  simp only [monthStart, toDays, daysInMonth, Nat.reduceLeDiff, Nat.reduceAdd, Nat.reduceMod,
    ↓reduceIte]
  split
  · have h := hleap.mp ‹_›
    omega
  · have h := (not_congr hleap).mp ‹_›
    omega

theorem monthStart_succ (year : Int) {month : Nat} (hpos : 1 ≤ month) (hlt : month < 12) :
    monthStart year (month + 1) = monthStart year month + daysInMonth year month := by
  by_cases hfebruary : month = 2
  · rw [hfebruary]
    exact monthStart_march year
  · interval_cases month <;> simp [monthStart, toDays, daysInMonth] at hfebruary ⊢ <;> omega

theorem monthStart_newYear (year : Int) : monthStart (year + 1) 1 = monthStart year 12 + 31 := by
  simp only [monthStart, toDays, Nat.reduceLeDiff, Nat.reduceAdd, Nat.reduceMod, ↓reduceIte]
  omega

theorem monthStart_le {year : Int} {month later : Nat} (hpos : 1 ≤ month) (hlt : month < later)
    (hle : later ≤ 12) :
    monthStart year month + daysInMonth year month ≤ monthStart year later := by
  induction later, hlt using Nat.le_induction with
  | base => exact (monthStart_succ year hpos (by omega)).ge
  | succ later hlater ih =>
    have hnext := monthStart_succ year (by omega : 1 ≤ later) (by omega)
    have hbefore := ih (by omega)
    omega

theorem monthEnd_le {year : Int} {month : Nat} (hpos : 1 ≤ month) (hle : month ≤ 12) :
    monthStart year month + daysInMonth year month ≤ monthStart year 12 + 31 := by
  rcases Nat.eq_or_lt_of_le hle with rfl | hlt
  · exact Int.le_refl _
  · have hlast := @monthStart_le year month 12 hpos hlt (Nat.le_refl 12)
    omega

theorem yearStart_le_monthStart {year : Int} {month : Nat} (hpos : 1 ≤ month) (hle : month ≤ 12) :
    monthStart year 1 ≤ monthStart year month := by
  rcases Nat.eq_or_lt_of_le hpos with rfl | hlt
  · exact Int.le_refl _
  · have hfirst := @monthStart_le year 1 month (Nat.le_refl 1) hlt hle
    omega

theorem yearStart_le {year later : Int} (h : year < later) :
    monthStart year 12 + 31 ≤ monthStart later 1 := by
  rw [← monthStart_newYear]
  simp only [monthStart, toDays, Nat.reduceLeDiff, Nat.reduceAdd, Nat.reduceMod, ↓reduceIte]
  omega

variable {date other : Date}

theorem InCalendar.next (h : date.InCalendar) : date.next.InCalendar := by
  obtain ⟨hmonth, hmonthLe, hday, hdayLe⟩ := h
  unfold Date.next
  split
  · rename_i hlt
    exact ⟨hmonth, hmonthLe, Nat.succ_pos _, hlt⟩
  · split
    · rename_i hlt
      exact ⟨Nat.succ_pos _, hlt, Nat.le_refl _, daysInMonth_pos _ _⟩
    · exact ⟨Nat.le_refl 1, Nat.succ_pos 11, Nat.le_refl 1, daysInMonth_pos _ _⟩

theorem InCalendar.previous (h : date.InCalendar) : date.previous.InCalendar := by
  obtain ⟨hmonth, hmonthLe, hday, hdayLe⟩ := h
  unfold Date.previous
  split
  · rename_i hlt
    exact ⟨hmonth, hmonthLe, Nat.le_sub_one_of_lt hlt, Nat.le_trans (Nat.sub_le _ _) hdayLe⟩
  · split
    · rename_i hlt
      exact ⟨Nat.le_sub_one_of_lt hlt, Nat.le_trans (Nat.sub_le _ _) hmonthLe,
        daysInMonth_pos _ _, Nat.le_refl _⟩
    · exact ⟨Nat.succ_pos 11, Nat.le_refl 12, Nat.succ_pos 30, Nat.le_refl 31⟩

theorem toDays_next (h : date.InCalendar) : date.next.toDays = date.toDays + 1 := by
  rw [toDays_eq date.next h.next.day_pos, toDays_eq date h.day_pos]
  obtain ⟨hmonth, hmonthLe, hday, hdayLe⟩ := h
  unfold next
  split
  · dsimp only
    omega
  · rename_i hend
    split
    · rename_i hlt
      have hsucc := monthStart_succ date.year hmonth hlt
      dsimp only
      omega
    · have hlast : date.month = 12 := by omega
      have hdays : daysInMonth date.year 12 = 31 := rfl
      have hnew := monthStart_newYear date.year
      rw [hlast, hdays] at hdayLe hend
      rw [hlast]
      dsimp only
      omega

theorem toDays_previous (h : date.InCalendar) : date.previous.toDays = date.toDays - 1 := by
  rw [toDays_eq date.previous h.previous.day_pos, toDays_eq date h.day_pos]
  obtain ⟨hmonth, hmonthLe, hday, hdayLe⟩ := h
  unfold previous
  split
  · dsimp only
    omega
  · split
    · have hsucc := monthStart_succ date.year (by omega : 1 ≤ date.month - 1) (by omega)
      rw [Nat.sub_add_cancel hmonth] at hsucc
      have hpos := daysInMonth_pos date.year (date.month - 1)
      dsimp only
      omega
    · have hfirst : date.month = 1 := by omega
      have hnew := monthStart_newYear (date.year - 1)
      rw [Int.sub_add_cancel] at hnew
      rw [hfirst]
      dsimp only
      omega

def Precedes (date other : Date) : Prop :=
  date.year < other.year ∨ date.year = other.year ∧
    (date.month < other.month ∨ date.month = other.month ∧ date.day < other.day)

instance (date other : Date) : Decidable (date.Precedes other) :=
  inferInstanceAs (Decidable (_ ∨ _))

theorem toDays_lt_of_precedes (h : date.InCalendar) (hother : other.InCalendar)
    (hprecedes : date.Precedes other) : date.toDays < other.toDays := by
  rw [toDays_eq date h.day_pos, toDays_eq other hother.day_pos]
  have hday := h.day_le
  have hpos := hother.day_pos
  rcases hprecedes with hyear | ⟨hyear, hmonth | ⟨hmonth, hday⟩⟩
  · have hend := @monthEnd_le date.year date.month h.month_pos h.month_le
    have hlater := yearStart_le hyear
    have hstart := @yearStart_le_monthStart other.year other.month hother.month_pos hother.month_le
    omega
  · have hlater := @monthStart_le date.year date.month other.month h.month_pos hmonth
      hother.month_le
    rw [← hyear]
    omega
  · rw [hyear, hmonth]
    omega

theorem precedes_or (date other : Date) :
    date.Precedes other ∨ date = other ∨ other.Precedes date := by
  cases date
  cases other
  simp only [Precedes, mk.injEq]
  omega

theorem toDays_lt_iff (h : date.InCalendar) (hother : other.InCalendar) :
    date.toDays < other.toDays ↔ date.Precedes other := by
  refine ⟨fun hlt => ?_, toDays_lt_of_precedes h hother⟩
  rcases precedes_or date other with hprecedes | rfl | hprecedes
  · exact hprecedes
  · exact absurd hlt (Int.lt_irrefl _)
  · have hgt := toDays_lt_of_precedes hother h hprecedes
    omega

theorem toDays_inj (h : date.InCalendar) (hother : other.InCalendar) :
    date.toDays = other.toDays ↔ date = other := by
  refine ⟨fun heq => ?_, congrArg toDays⟩
  rcases precedes_or date other with hprecedes | heq | hprecedes
  · have hlt := toDays_lt_of_precedes h hother hprecedes
    omega
  · exact heq
  · have hlt := toDays_lt_of_precedes hother h hprecedes
    omega

end RightsPolicy.Date
