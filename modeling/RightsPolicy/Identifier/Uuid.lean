import RightsPolicy.Text.Digits

namespace RightsPolicy

structure Uuid where
  high : UInt64
  low : UInt64
  deriving DecidableEq, Repr

namespace Uuid

def ofRandom (high low : UInt64) : Uuid where
  high := (high &&& 0xFFFFFFFFFFFF0FFF) ||| 0x4000
  low := (low &&& 0x3FFFFFFFFFFFFFFF) ||| 0x8000000000000000

def chars (uuid : Uuid) : List Char :=
  let high := Text.hexDigits uuid.high.toNat 16
  let low := Text.hexDigits uuid.low.toNat 16
  high.take 8 ++ '-' :: (high.drop 8).take 4 ++ '-' :: high.drop 12 ++
    '-' :: low.take 4 ++ '-' :: low.drop 4

def text (uuid : Uuid) : String :=
  String.ofList uuid.chars

def isLowerHex (c : Char) : Bool :=
  c.isDigit || ('a' ≤ c && c ≤ 'f')

def isVersionFour (s : String) : Bool :=
  match s.toList.splitBy fun a b => (a == '-') == (b == '-') with
  | [a, ['-'], b, ['-'], c, ['-'], d, ['-'], e] =>
    [a, b, c, d, e].map (·.length) == [8, 4, 4, 4, 12] &&
      (a ++ b ++ c ++ d ++ e).all isLowerHex && c.head? == some '4' &&
      (d.head?.any fun x => x == '8' || x == '9' || x == 'a' || x == 'b')
  | _ => false

end Uuid

end RightsPolicy
