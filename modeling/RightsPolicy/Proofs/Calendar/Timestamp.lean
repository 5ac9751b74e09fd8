import RightsPolicy.Proofs.Calendar.Date
import RightsPolicy.Proofs.Calendar.Spelling

namespace RightsPolicy

structure Instant.IsWritable (t : Instant) : Prop where
  isInRange : t.isInRange = true
  nano_lt : t.nano < 2 * nanosPerSecond
  second_of_leap : t.isLeapSecond = true → t.second % 60 = 59

namespace Timestamp

section Padded

variable (width n : Nat)

theorem isDigit_padded : ∀ c ∈ padded width n, c.isDigit = true := by
  intro c hc
  rw [padded, Nat.toList_repr] at hc
  rcases List.mem_append.mp hc with hzero | hdigit
  · rw [(List.mem_replicate.mp hzero).2]
    decide
  · exact Text.isDigit_toDigits n c hdigit

theorem isDigits_padded : Text.IsDigits (padded width n) :=
  ⟨by simp [padded], isDigit_padded width n⟩

theorem digitsValue_padded : Text.digitsValue (padded width n) = n := by
  have hvalue := Text.digitsValue_toDigits n
  simp only [padded, Nat.toList_repr]
  generalize width - (Nat.toDigits 10 n).length = count
  induction count with
  | zero => exact hvalue
  | succ count ih => exact ih

variable {width n}

theorem length_padded (hwidth : 0 < width) (hn : n < 10 ^ width) :
    (padded width n).length = width := by
  have hle : (Nat.toDigits 10 n).length ≤ width :=
    (Nat.length_toDigits_le_iff (by decide) hwidth).mpr hn
  simp only [padded, Nat.toList_repr, List.length_append, List.length_replicate]
  omega

end Padded

theorem space_nil : Space [] :=
  nofun

theorem spellsField_padded {n : Nat} (h : n < 100) : SpellsField (padded 2 n) n := by
  have hfield := SpellsField.mk space_nil (isDigits_padded 2 n) (length_padded (by decide) h).le
  rwa [List.nil_append, digitsValue_padded] at hfield

theorem spellsYear_yearChars (year : Int) : SpellsYear (yearChars year) year := by
  unfold yearChars
  split
  · rename_i hplain
    have hlength := @length_padded 4 year.toNat (by decide) (by omega)
    have hyear := SpellsYear.plain space_nil (isDigits_padded 4 year.toNat) hlength.le
    rwa [List.nil_append, digitsValue_padded, Int.toNat_of_nonneg hplain.1] at hyear
  · split
    · rename_i hpositive
      have hyear := SpellsYear.plus space_nil (isDigits_padded 4 year.natAbs)
      rwa [digitsValue_padded, Int.natAbs_of_nonneg hpositive] at hyear
    · have hyear := SpellsYear.minus space_nil (isDigits_padded 4 year.natAbs)
      have hvalue : -(year.natAbs : Int) = year := by omega
      rwa [digitsValue_padded, hvalue] at hyear

theorem spellsDate_dateChars {date : Date} (h : date.isValid = true) :
    SpellsDate (dateChars date) date := by
  have hcalendar := Date.inCalendar_of_isValid h
  have hmonth : date.month < 100 := Nat.lt_of_le_of_lt hcalendar.month_le (by decide)
  have hday : date.day < 100 :=
    Nat.lt_of_le_of_lt (hcalendar.day_le.trans (Date.daysInMonth_le _ _)) (by decide)
  have hdate := SpellsDate.mk (spellsYear_yearChars date.year) space_nil (spellsField_padded hmonth)
    space_nil (spellsField_padded hday) h
  rw [dateChars]
  simpa using hdate

theorem spellsFraction_padded {width n : Nat} (hwidth : 0 < width) (hmax : width ≤ 9)
    (hn : n < 10 ^ width) : SpellsFraction ('.' :: padded width n) (n * 10 ^ (9 - width)) := by
  have hfraction := SpellsFraction.digits (isDigits_padded width n)
  have hnine : 10 ^ 9 = 10 ^ (9 - width) * 10 ^ width := by
    rw [← Nat.pow_add, Nat.sub_add_cancel hmax]
  rwa [digitsValue_padded, length_padded hwidth hn, hnine, ← Nat.mul_assoc,
    Nat.mul_div_cancel _ (Nat.pow_pos (by decide))] at hfraction

theorem spellsFraction_fractionChars {nano : Nat} (h : nano < Instant.nanosPerSecond) :
    SpellsFraction (fractionChars nano) nano := by
  simp only [Instant.nanosPerSecond] at h
  unfold fractionChars
  split
  · rename_i hzero
    rw [hzero]
    exact .none
  · split
    · have hfraction := @spellsFraction_padded 3 (nano / 1000000) (by decide) (by decide) (by omega)
      have hexact : nano / 1000000 * 10 ^ (9 - 3) = nano := by omega
      rwa [hexact] at hfraction
    · split
      · have hfraction := @spellsFraction_padded 6 (nano / 1000) (by decide) (by decide) (by omega)
        have hexact : nano / 1000 * 10 ^ (9 - 6) = nano := by omega
        rwa [hexact] at hfraction
      · have hfraction := @spellsFraction_padded 9 nano (by decide) (by decide) (by omega)
        have hexact : nano * 10 ^ (9 - 9) = nano := by omega
        rwa [hexact] at hfraction

def clockChars (m : Moment) : List Char :=
  padded 2 m.hour ++ ':' :: (padded 2 m.minute ++
    ':' :: (padded 2 m.second ++ fractionChars m.nano))

theorem spellsTime_clockChars {m : Moment} (h : m.OnClock) : SpellsTime (clockChars m) m := by
  obtain ⟨-, hhour, hminute, hsecond, hnano⟩ := h
  have htime := SpellsTime.mk (spellsField_padded (by omega)) space_nil
    (spellsField_padded (by omega)) space_nil (spellsField_padded (by omega))
    (spellsFraction_fractionChars hnano) hhour hminute hsecond
  rwa [List.nil_append, List.nil_append] at htime

theorem ofLocal_date (t : Instant) : Instant.ofLocal t.date t.secondOfDay t.nano 0 = t := by
  have hsecond : (Date.ofDays (t.second / Instant.secondsPerDay)).toDays * Instant.secondsPerDay +
      ((t.second % Instant.secondsPerDay).toNat : Int) - 0 = t.second := by
    rw [Date.toDays_ofDays]
    simp only [Instant.secondsPerDay]
    omega
  simp only [Instant.ofLocal, Instant.date, Instant.secondOfDay, hsecond]

def utcMoment (t : Instant) : Moment where
  date := t.date
  hour := t.secondOfDay / 3600
  minute := t.secondOfDay / 60 % 60
  second := t.secondOfDay % 60 + if t.isLeapSecond then 1 else 0
  nano := t.nano % Instant.nanosPerSecond
  offset := 0

theorem secondOfDay_lt (t : Instant) : t.secondOfDay < Instant.secondsPerDay := by
  simp only [Instant.secondOfDay, Instant.secondsPerDay]
  omega

theorem secondOfDay_of_leap {t : Instant} (h : t.IsWritable) (hleap : t.isLeapSecond = true) :
    t.secondOfDay % 60 = 59 := by
  have hlast := h.second_of_leap hleap
  simp only [Instant.secondOfDay, Instant.secondsPerDay]
  omega

theorem instant_utcMoment {t : Instant} (h : t.IsWritable) : (utcMoment t).instant = t := by
  have htime : (utcMoment t).time = (t.secondOfDay, t.nano) := by
    have hnano := h.nano_lt
    cases hleap : t.isLeapSecond with
    | true =>
      have hlast := secondOfDay_of_leap h hleap
      have hleast := of_decide_eq_true hleap
      simp only [Instant.nanosPerSecond] at hnano hleast
      simp only [Moment.time, utcMoment, hleap, hlast, if_true, Instant.nanosPerSecond,
        Prod.mk.injEq]
      omega
    | false =>
      have hless := of_decide_eq_false hleap
      simp only [Instant.nanosPerSecond] at hless
      have hsecond : t.secondOfDay % 60 + 0 ≠ 60 := by omega
      simp only [Moment.time, utcMoment, hleap, Bool.false_eq_true, if_false, hsecond,
        Instant.nanosPerSecond, Prod.mk.injEq]
      omega
  rw [Moment.instant, htime]
  exact ofLocal_date t

theorem onClock_utcMoment {t : Instant} (h : t.date.isValid = true) : (utcMoment t).OnClock := by
  have hlt := secondOfDay_lt t
  simp only [Instant.secondsPerDay] at hlt
  refine ⟨Date.inCalendar_of_isValid h, ?_, ?_, ?_, Nat.mod_lt _ (by decide)⟩
  · simp only [utcMoment]
    omega
  · simp only [utcMoment]
    omega
  · simp only [utcMoment]
    split <;> omega

theorem chars_eq (t : Instant) :
    chars t = dateChars t.date ++ 'T' :: (clockChars (utcMoment t) ++ ['Z']) := by
  simp [chars, timeChars, clockChars, utcMoment]

theorem spells_chars {t : Instant} (h : t.IsWritable) : Spells (chars t) (utcMoment t) := by
  have hrange := h.isInRange
  simp only [Instant.isInRange, Bool.and_eq_true, decide_eq_true_eq] at hrange
  have hvalid : t.date.isValid = true := Date.isValid_ofDays hrange.1 hrange.2
  have htime := spellsTime_clockChars (onClock_utcMoment hvalid)
  have hspells := @Spells.mk (utcMoment t) _ _ _ _ _ _ (spellsDate_dateChars hvalid) (.inl rfl)
    htime space_nil (.zulu (.inl rfl)) space_nil
  rw [List.nil_append, List.append_nil] at hspells
  rw [chars_eq]
  exact hspells

theorem read?_text {t : Instant} (h : t.IsWritable) : read? (text t) = some t := by
  have hspells := spells_chars h
  rw [← @String.toList_ofList (chars t)] at hspells
  rw [text, read?_of_spells hspells, instant_utcMoment h, if_pos h.isInRange]

end Timestamp

end RightsPolicy
