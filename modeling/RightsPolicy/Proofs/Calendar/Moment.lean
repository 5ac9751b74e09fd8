import Mathlib.Logic.Function.Iterate
import Mathlib.Tactic.Ring
import RightsPolicy.Calendar.Instant
import RightsPolicy.Proofs.Calendar.Order

namespace RightsPolicy

@[ext]
structure Moment where
  date : Date
  hour : Nat
  minute : Nat
  second : Nat
  nano : Nat
  offset : Int
  deriving DecidableEq, Repr

namespace Moment

structure OnClock (m : Moment) : Prop where
  date : m.date.InCalendar
  hour_le : m.hour ≤ 23
  minute_le : m.minute ≤ 59
  second_le : m.second ≤ 60
  nano_lt : m.nano < Instant.nanosPerSecond

instance (m : Moment) : Decidable m.OnClock :=
  decidable_of_iff (m.date.InCalendar ∧ m.hour ≤ 23 ∧ m.minute ≤ 59 ∧ m.second ≤ 60 ∧
      m.nano < Instant.nanosPerSecond)
    ⟨fun ⟨hdate, hhour, hminute, hsecond, hnano⟩ => ⟨hdate, hhour, hminute, hsecond, hnano⟩,
      fun ⟨hdate, hhour, hminute, hsecond, hnano⟩ => ⟨hdate, hhour, hminute, hsecond, hnano⟩⟩

def setAhead (m : Moment) : Moment :=
  if m.minute < 59 then { m with minute := m.minute + 1, offset := m.offset + 1 }
  else if m.hour < 23 then
    { m with hour := m.hour + 1, minute := 0, offset := m.offset + 1 }
  else { m with date := m.date.next, hour := 0, minute := 0, offset := m.offset + 1 }

def setBack (m : Moment) : Moment :=
  if 0 < m.minute then { m with minute := m.minute - 1, offset := m.offset - 1 }
  else if 0 < m.hour then
    { m with hour := m.hour - 1, minute := 59, offset := m.offset - 1 }
  else { m with date := m.date.previous, hour := 23, minute := 59, offset := m.offset - 1 }

def setTo (offset : Int) (m : Moment) : Moment :=
  if m.offset ≤ offset then setAhead^[(offset - m.offset).toNat] m
  else setBack^[(m.offset - offset).toNat] m

def utc (m : Moment) : Moment :=
  m.setTo 0

def EarlierInDay (m n : Moment) : Prop :=
  m.hour < n.hour ∨ m.hour = n.hour ∧
    (m.minute < n.minute ∨ m.minute = n.minute ∧
      (m.second < n.second ∨ m.second = n.second ∧ m.nano < n.nano))

def ShowsEarlier (m n : Moment) : Prop :=
  m.date.Precedes n.date ∨ m.date = n.date ∧ m.EarlierInDay n

def Before (m n : Moment) : Prop :=
  m.utc.ShowsEarlier n.utc

def SameInstant (m n : Moment) : Prop :=
  m.utc = n.utc

instance (m n : Moment) : Decidable (m.EarlierInDay n) :=
  inferInstanceAs (Decidable (_ ∨ _))

instance (m n : Moment) : Decidable (m.ShowsEarlier n) :=
  inferInstanceAs (Decidable (_ ∨ _))

instance (m n : Moment) : Decidable (m.Before n) :=
  inferInstanceAs (Decidable (m.utc.ShowsEarlier n.utc))

instance (m n : Moment) : Decidable (m.SameInstant n) :=
  inferInstanceAs (Decidable (m.utc = n.utc))

def time (m : Moment) : Nat × Nat :=
  let start := 3600 * m.hour + 60 * m.minute
  if m.second = 60 then (start + 59, Instant.nanosPerSecond + m.nano)
  else (start + m.second, m.nano)

def instant (m : Moment) : Instant :=
  .ofLocal m.date m.time.1 m.time.2 (60 * m.offset)

variable {m n : Moment}

theorem OnClock.setAhead (h : m.OnClock) : m.setAhead.OnClock := by
  obtain ⟨hdate, hhour, hminute, hsecond, hnano⟩ := h
  unfold Moment.setAhead
  split
  · rename_i hlt
    exact ⟨hdate, hhour, hlt, hsecond, hnano⟩
  · split
    · rename_i hlt
      exact ⟨hdate, hlt, Nat.zero_le 59, hsecond, hnano⟩
    · exact ⟨hdate.next, Nat.zero_le 23, Nat.zero_le 59, hsecond, hnano⟩

theorem OnClock.setBack (h : m.OnClock) : m.setBack.OnClock := by
  obtain ⟨hdate, hhour, hminute, hsecond, hnano⟩ := h
  unfold Moment.setBack
  split
  · exact ⟨hdate, hhour, Nat.le_trans (Nat.sub_le _ _) hminute, hsecond, hnano⟩
  · split
    · exact ⟨hdate, Nat.le_trans (Nat.sub_le _ _) hhour, Nat.le_refl 59, hsecond, hnano⟩
    · exact ⟨hdate.previous, Nat.le_refl 23, Nat.le_refl 59, hsecond, hnano⟩

def minutes (m : Moment) : Int :=
  1440 * m.date.toDays + (60 * m.hour + m.minute) - m.offset

theorem instant_eq_of_minutes (hminutes : m.minutes = n.minutes) (hsecond : m.second = n.second)
    (hnano : m.nano = n.nano) : m.instant = n.instant := by
  unfold minutes at hminutes
  simp only [instant, time, Instant.ofLocal, Instant.secondsPerDay, hsecond, hnano]
  split
  · simp only [Instant.mk.injEq, and_true]
    omega
  · simp only [Instant.mk.injEq, and_true]
    omega

theorem instant_setAhead (h : m.OnClock) : m.setAhead.instant = m.instant := by
  have hnext := Date.toDays_next h.date
  have hminute := h.minute_le
  have hhour := h.hour_le
  apply instant_eq_of_minutes
  · unfold setAhead minutes
    split
    · dsimp only
      omega
    · split
      · dsimp only
        omega
      · dsimp only
        omega
  · unfold setAhead
    split
    · rfl
    · split <;> rfl
  · unfold setAhead
    split
    · rfl
    · split <;> rfl

theorem instant_setBack (h : m.OnClock) : m.setBack.instant = m.instant := by
  have hprevious := Date.toDays_previous h.date
  apply instant_eq_of_minutes
  · unfold setBack minutes
    split
    · dsimp only
      omega
    · split
      · dsimp only
        omega
      · dsimp only
        omega
  · unfold setBack
    split
    · rfl
    · split <;> rfl
  · unfold setBack
    split
    · rfl
    · split <;> rfl

theorem offset_setAhead (m : Moment) : m.setAhead.offset = m.offset + 1 := by
  unfold setAhead
  split
  · rfl
  · split <;> rfl

theorem offset_setBack (m : Moment) : m.setBack.offset = m.offset - 1 := by
  unfold setBack
  split
  · rfl
  · split <;> rfl

theorem onClock_iterate {set : Moment → Moment} (hset : ∀ m, m.OnClock → (set m).OnClock)
    (h : m.OnClock) (count : Nat) : (set^[count] m).OnClock := by
  induction count with
  | zero => exact h
  | succ count ih =>
    rw [Function.iterate_succ_apply']
    exact hset _ ih

theorem instant_iterate {set : Moment → Moment} (hset : ∀ m, m.OnClock → (set m).OnClock)
    (hinstant : ∀ m, m.OnClock → (set m).instant = m.instant) (h : m.OnClock) (count : Nat) :
    (set^[count] m).instant = m.instant := by
  induction count with
  | zero => rfl
  | succ count ih =>
    rw [Function.iterate_succ_apply', hinstant _ (onClock_iterate hset h count), ih]

theorem offset_iterate {set : Moment → Moment} {shift : Int}
    (hset : ∀ m, (set m).offset = m.offset + shift) (m : Moment) (count : Nat) :
    (set^[count] m).offset = m.offset + count * shift := by
  induction count with
  | zero => simp
  | succ count ih =>
    rw [Function.iterate_succ_apply', hset, ih]
    push_cast
    ring

theorem OnClock.setTo (h : m.OnClock) (offset : Int) : (m.setTo offset).OnClock := by
  unfold Moment.setTo
  split
  · exact onClock_iterate (fun _ => OnClock.setAhead) h _
  · exact onClock_iterate (fun _ => OnClock.setBack) h _

theorem instant_setTo (h : m.OnClock) (offset : Int) : (m.setTo offset).instant = m.instant := by
  unfold setTo
  split
  · exact instant_iterate (fun _ => OnClock.setAhead) (fun _ => instant_setAhead) h _
  · exact instant_iterate (fun _ => OnClock.setBack) (fun _ => instant_setBack) h _

theorem offset_setTo (offset : Int) (m : Moment) : (m.setTo offset).offset = offset := by
  unfold setTo
  split
  · rw [@offset_iterate setAhead 1 offset_setAhead]
    omega
  · rw [@offset_iterate setBack (-1) offset_setBack]
    omega

theorem le_iff_of_offset (hm : m.OnClock) (hn : n.OnClock) (hoffset : m.offset = n.offset) :
    m.instant.le n.instant = true ↔ ¬ n.ShowsEarlier m := by
  obtain ⟨hmDate, hmHour, hmMinute, hmSecond, hmNano⟩ := hm
  obtain ⟨hnDate, hnHour, hnMinute, hnSecond, hnNano⟩ := hn
  rw [ShowsEarlier, EarlierInDay, ← Date.toDays_lt_iff hnDate hmDate,
    ← Date.toDays_inj hnDate hmDate]
  simp only [Instant.nanosPerSecond] at hmNano hnNano
  simp only [Instant.le, Bool.or_eq_true, Bool.and_eq_true, decide_eq_true_eq, instant, time,
    hoffset]
  -- a leap second is told apart by its nanoseconds, so the two kinds of seconds are taken by turns
  split
  · split
    · simp only [Instant.ofLocal, Instant.secondsPerDay, Instant.nanosPerSecond]
      omega
    · simp only [Instant.ofLocal, Instant.secondsPerDay, Instant.nanosPerSecond]
      omega
  · split
    · simp only [Instant.ofLocal, Instant.secondsPerDay, Instant.nanosPerSecond]
      omega
    · simp only [Instant.ofLocal, Instant.secondsPerDay]
      omega

theorem showsEarlier_or (hoffset : m.offset = n.offset) :
    m.ShowsEarlier n ∨ m = n ∨ n.ShowsEarlier m := by
  have htime : m.EarlierInDay n ∨ (m.hour = n.hour ∧ m.minute = n.minute ∧ m.second = n.second ∧
      m.nano = n.nano) ∨ n.EarlierInDay m := by
    unfold EarlierInDay
    omega
  rcases Date.precedes_or m.date n.date with hdate | hdate | hdate
  · exact .inl (.inl hdate)
  · rcases htime with htime | ⟨hhour, hminute, hsecond, hnano⟩ | htime
    · exact .inl (.inr ⟨hdate, htime⟩)
    · exact .inr (.inl (Moment.ext hdate hhour hminute hsecond hnano hoffset))
    · exact .inr (.inr (.inr ⟨hdate.symm, htime⟩))
  · exact .inr (.inr (.inl hdate))

theorem eq_of_instant (hm : m.OnClock) (hn : n.OnClock) (hoffset : m.offset = n.offset)
    (h : m.instant = n.instant) : m = n := by
  have hmn := (le_iff_of_offset hm hn hoffset).mp (by simp [h, Instant.le])
  have hnm := (le_iff_of_offset hn hm hoffset.symm).mp (by simp [h, Instant.le])
  rcases showsEarlier_or hoffset with hearlier | heq | hearlier
  · exact absurd hearlier hnm
  · exact heq
  · exact absurd hearlier hmn

theorem le_iff (hm : m.OnClock) (hn : n.OnClock) :
    m.instant.le n.instant = true ↔ ¬ n.Before m := by
  rw [← instant_setTo hm 0, ← instant_setTo hn 0]
  exact le_iff_of_offset (hm.setTo 0) (hn.setTo 0)
    ((offset_setTo 0 m).trans (offset_setTo 0 n).symm)

theorem sameInstant_iff (hm : m.OnClock) (hn : n.OnClock) :
    m.SameInstant n ↔ m.instant = n.instant := by
  rw [← instant_setTo hm 0, ← instant_setTo hn 0]
  constructor
  · intro h
    exact congrArg instant h
  · exact eq_of_instant (hm.setTo 0) (hn.setTo 0) ((offset_setTo 0 m).trans (offset_setTo 0 n).symm)

theorem sameInstant_setTo (h : m.OnClock) (offset : Int) : m.SameInstant (m.setTo offset) :=
  (sameInstant_iff h (h.setTo offset)).mpr (instant_setTo h offset).symm

end Moment

end RightsPolicy
