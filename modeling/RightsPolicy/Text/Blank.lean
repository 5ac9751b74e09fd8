namespace RightsPolicy.Text

def whiteSpaceRanges : List (Nat × Nat) :=
  [(0x9, 0xD), (0x20, 0x20), (0x85, 0x85), (0xA0, 0xA0), (0x1680, 0x1680), (0x2000, 0x200A),
    (0x2028, 0x2029), (0x202F, 0x202F), (0x205F, 0x205F), (0x3000, 0x3000)]

def inRanges (ranges : List (Nat × Nat)) (code : Nat) : Bool :=
  ranges.any fun range => range.1 ≤ code && code ≤ range.2

def isWhiteSpace (c : Char) : Bool :=
  inRanges whiteSpaceRanges c.toNat

def isBlank (s : String) : Bool :=
  s.toList.all isWhiteSpace

def dropSpace (cs : List Char) : List Char :=
  cs.dropWhile isWhiteSpace

end RightsPolicy.Text
