import Mathlib.Data.List.Basic
import RightsPolicy.Proofs.Calendar.Timestamp

namespace RightsPolicy.Timestamp

def offsetChars (offset : Int) : List Char :=
  (if 0 ≤ offset then '+' else '-') ::
    (padded 2 (offset.natAbs / 60) ++ ([':'] ++ padded 2 (offset.natAbs % 60)))

def momentChars (m : Moment) : List Char :=
  dateChars m.date ++ 'T' :: (clockChars m ++ offsetChars m.offset)

theorem exists_padded_two {n : Nat} (h : n < 100) : ∃ a b, padded 2 n = [a, b] ∧
    (∀ c ∈ [a, b], c.isDigit = true) ∧ Text.digitsValue [a, b] = n := by
  obtain ⟨a, b, hab⟩ := List.length_eq_two.mp (@length_padded 2 n (by decide) h)
  refine ⟨a, b, hab, ?_, ?_⟩
  · rw [← hab]
    exact isDigit_padded 2 n
  · rw [← hab]
    exact digitsValue_padded 2 n

theorem spellsShift_padded {size : Nat} (h : size < 1440) :
    SpellsShift (padded 2 (size / 60) ++ ([':'] ++ padded 2 (size % 60))) size := by
  obtain ⟨a, b, hhours, habDigits, hab⟩ := exists_padded_two (by omega : size / 60 < 100)
  obtain ⟨c, d, hminutes, hcdDigits, hcd⟩ := exists_padded_two (by omega : size % 60 < 100)
  have hgap : ∀ e ∈ [':'], e = ':' ∨ Text.isWhiteSpace e = true := by simp
  have hshift := SpellsShift.mk habDigits hgap hcdDigits (by omega) (by omega)
  have hsize : (60 * Text.digitsValue [a, b] + Text.digitsValue [c, d] : Int) = size := by
    rw [hab, hcd]
    omega
  rw [hsize] at hshift
  rw [hhours, hminutes]
  exact hshift

theorem spellsOffset_offsetChars {offset : Int} (h : offset.natAbs < 1440) :
    SpellsOffset (offsetChars offset) offset := by
  have hshift := spellsShift_padded h
  unfold offsetChars
  split
  · rename_i hpositive
    rw [Int.natAbs_of_nonneg hpositive] at hshift
    exact .ahead hshift
  · have hbehind := SpellsOffset.behind (.inl rfl) hshift
    have hvalue : -(offset.natAbs : Int) = offset := by omega
    rwa [hvalue] at hbehind

theorem spells_momentChars {m : Moment} (h : m.OnClock) (hvalid : m.date.isValid = true)
    (hoffset : m.offset.natAbs < 1440) : Spells (momentChars m) m := by
  have hspells := Spells.mk (spellsDate_dateChars hvalid) (.inl rfl) (spellsTime_clockChars h)
    space_nil (spellsOffset_offsetChars hoffset) space_nil
  rw [momentChars]
  simpa using hspells

end RightsPolicy.Timestamp
