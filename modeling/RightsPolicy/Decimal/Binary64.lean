namespace RightsPolicy

structure Magnitude where
  mantissa : Nat
  exponent : Int
  deriving DecidableEq, Repr

structure Binary64 where
  negative : Bool
  magnitude : Magnitude
  deriving DecidableEq, Repr

namespace Magnitude

def leastExponent : Int := -1074

def greatestExponent : Int := 971

def zero : Magnitude := ⟨0, leastExponent⟩

def roundHalfEven (num den : Nat) : Nat :=
  let quotient := num / den
  let rest := 2 * (num % den)
  if rest > den ∨ (rest = den ∧ quotient % 2 = 1) then quotient + 1 else quotient

def inUnits (num den : Nat) (exponent : Int) : Nat × Nat :=
  (num * Nat.pow 2 (-exponent).toNat, den * Nat.pow 2 exponent.toNat)

def nearest? (num den : Nat) : Option Magnitude :=
  if num = 0 then
    some zero
  else
    let guess := max leastExponent ((num.log2 : Int) - den.log2 - 53)
    let (n, d) := inUnits num den guess
    let exponent := if n / d < Nat.pow 2 53 then guess else guess + 1
    let (n, d) := inUnits num den exponent
    let mantissa := roundHalfEven n d
    let rounded : Magnitude :=
      if mantissa = Nat.pow 2 53 then ⟨Nat.pow 2 52, exponent + 1⟩ else ⟨mantissa, exponent⟩
    if rounded.exponent ≤ greatestExponent then some rounded else none

def ofNat? (n : Nat) : Option Magnitude :=
  nearest? n 1

def numerator (x : Magnitude) : Nat :=
  x.mantissa * Nat.pow 2 x.exponent.toNat

def denominator (x : Magnitude) : Nat :=
  Nat.pow 2 (-x.exponent).toNat

def mul? (x y : Magnitude) : Option Magnitude :=
  nearest? (x.numerator * y.numerator) (x.denominator * y.denominator)

def div? (x y : Magnitude) : Option Magnitude :=
  nearest? (x.numerator * y.denominator) (x.denominator * y.numerator)

def greatestPower : Nat := 308

def timesPower? (x : Magnitude) (power : Nat) : Option Magnitude :=
  if power ≤ greatestPower then
    (ofNat? (Nat.pow 10 power)).bind x.mul?
  else if x.mantissa = 0 then
    some x
  else
    none

def overGreatest? (x : Magnitude) : Nat → Option Magnitude
  | 0 => some x
  | times + 1 =>
    if x.mantissa = 0 then
      some x
    else
      match (ofNat? (Nat.pow 10 greatestPower)).bind x.div? with
      | some y => y.overGreatest? times
      | none => none

/-- `x` over a power of ten. A power beyond the doubles is taken off in several rounded
divisions, the last one by what is left of it. -/
def overPower? (x : Magnitude) (power : Nat) : Option Magnitude :=
  let times := (power - 1) / greatestPower
  (x.overGreatest? times).bind fun y =>
    (ofNat? (Nat.pow 10 (power - times * greatestPower))).bind y.div?

def ofDecimal? (significand : Nat) (power : Int) : Option Magnitude :=
  (ofNat? significand).bind fun x =>
    if 0 ≤ power then x.timesPower? power.toNat else x.overPower? (-power).toNat

end Magnitude

end RightsPolicy
