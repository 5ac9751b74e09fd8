import RightsPolicy.Decimal.Binary64

namespace RightsPolicy

structure Decimal where
  digits : Nat
  power : Int
  deriving DecidableEq, Repr

namespace Decimal

def digitCount (n : Nat) : Nat :=
  (Nat.toDigits 10 n).length

def leadingPower (num den : Nat) : Int :=
  if den ≤ num then
    (digitCount (num / den) : Int) - 1
  else
    -(digitCount ((den + num - 1) / num - 1) : Int)

def trimmed (d : Decimal) : Decimal :=
  if h : d.digits ≠ 0 ∧ d.digits % 10 = 0 then
    trimmed ⟨d.digits / 10, d.power + 1⟩
  else
    d
termination_by d.digits
decreasing_by
  omega

end Decimal

namespace Magnitude

/-- The decimal with `count` digits that is nearest to `x`, if it rounds to `x`. All sizes are in
quarters of the unit of the last place, so both ends of the rounding interval are whole. -/
def withDigits? (x : Magnitude) (count : Nat) : Option Decimal :=
  let power := Decimal.leadingPower x.numerator x.denominator - count + 1
  let quarter := Nat.pow 2 (x.exponent - 2).toNat * Nat.pow 10 (-power).toNat
  let step := Nat.pow 10 power.toNat * Nat.pow 2 (2 - x.exponent).toNat
  let value := 4 * x.mantissa * quarter
  let below := if x.mantissa = Nat.pow 2 52 ∧ x.exponent > leastExponent then 1 else 2
  let low := (4 * x.mantissa - below) * quarter
  let high := (4 * x.mantissa + 2) * quarter
  let inside (digits : Nat) : Bool :=
    let point := digits * step
    if x.mantissa % 2 = 0 then low ≤ point && point ≤ high else low < point && point < high
  let down := value / step
  let up := down + 1
  let toDown := value - down * step
  let toUp := up * step - value
  let downFirst := toDown < toUp || (toDown == toUp && down % 2 == 0)
  if inside down && (downFirst || !inside up) then
    some ⟨down, power⟩
  else if inside up then
    some ⟨up, power⟩
  else
    none

def shortest (x : Magnitude) : Decimal :=
  let found := (List.range 17).findSome? fun i => x.withDigits? (i + 1)
  (found.getD ⟨0, 0⟩).trimmed

end Magnitude

end RightsPolicy
