import RightsPolicy.Text.Blank
import RightsPolicy.Text.LowerCase.Table

namespace RightsPolicy.Text

namespace LowerCase

def Run.shift? (run : Run) (code : Nat) : Option Int :=
  if run.first ≤ code ∧ code ≤ run.last ∧ (code - run.first) % run.step = 0 then
    some run.shift
  else
    none

def ofChar (c : Char) : List Char :=
  if c = 'İ' then
    ['i', '\u0307']
  else
    match runs.findSome? (·.shift? c.toNat) with
    | some shift => [Char.ofNat (c.toNat + shift).toNat]
    | none => [c]

def startsCased (cs : List Char) : Bool :=
  match cs.dropWhile fun c => inRanges caseIgnorable c.toNat with
  | [] => false
  | c :: _ => inRanges cased c.toNat

def ofList (before : List Char) : List Char → List Char
  | [] => []
  | c :: rest =>
    let lowered :=
      if c = 'Σ' then
        [if startsCased before && !startsCased rest then 'ς' else 'σ']
      else
        ofChar c
    lowered ++ ofList (c :: before) rest

end LowerCase

def lowerCase (s : String) : String :=
  String.ofList (LowerCase.ofList [] s.toList)

end RightsPolicy.Text
