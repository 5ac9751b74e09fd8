import RightsPolicy.Decimal.Shortest

namespace RightsPolicy

structure DecimalLayout where
  positionalFrom : Int
  positionalTo : Int

namespace DecimalLayout

def positional (digits : List Char) (leading : Int) : List Char :=
  if 0 ≤ leading then
    let count := leading.toNat + 1
    let whole := digits.take count ++ List.replicate (count - digits.length) '0'
    let fraction := digits.drop count
    whole ++ '.' :: if fraction.isEmpty then ['0'] else fraction
  else
    '0' :: '.' :: List.replicate ((-leading).toNat - 1) '0' ++ digits

def scientific (digits : List Char) (leading : Int) : List Char :=
  let fraction := digits.drop 1
  digits.take 1 ++ (if fraction.isEmpty then [] else '.' :: fraction) ++
    'e' :: (if 0 ≤ leading then '+' else '-') :: (Nat.repr leading.natAbs).toList

def chars (layout : DecimalLayout) (x : Binary64) : List Char :=
  let sign := if x.negative then ['-'] else []
  if x.magnitude.mantissa = 0 then
    sign ++ ['0', '.', '0']
  else
    let shortest := x.magnitude.shortest
    let digits := (Nat.repr shortest.digits).toList
    let leading := shortest.power + digits.length - 1
    sign ++
      if layout.positionalFrom ≤ leading ∧ leading ≤ layout.positionalTo then
        positional digits leading
      else
        scientific digits leading

end DecimalLayout

end RightsPolicy
