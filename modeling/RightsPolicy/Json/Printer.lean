import RightsPolicy.Decimal.Layout
import RightsPolicy.Json.Value
import RightsPolicy.Json.Quoted

namespace RightsPolicy.Json

inductive Layout where
  | compact
  | indented
  deriving DecidableEq, Repr

def decimalLayout : DecimalLayout := ⟨-5, 15⟩

def integerChars (n : Int) : List Char :=
  if n < 0 then '-' :: (Nat.repr n.natAbs).toList else (Nat.repr n.natAbs).toList

def quotedChars (s : String) : List Char :=
  '"' :: Quoted.encode s.toList ++ ['"']

namespace Layout

def lineBreak (layout : Layout) (depth : Nat) : List Char :=
  match layout with
  | .compact => []
  | .indented => '\n' :: List.replicate (2 * depth) ' '

def colon (layout : Layout) : List Char :=
  match layout with
  | .compact => [':']
  | .indented => [':', ' ']

end Layout

mutual

def chars (layout : Layout) (depth : Nat) : Json → List Char
  | .null => ['n', 'u', 'l', 'l']
  | .bool true => ['t', 'r', 'u', 'e']
  | .bool false => ['f', 'a', 'l', 's', 'e']
  | .integer n => integerChars n
  | .decimal x => decimalLayout.chars x
  | .text s => quotedChars s
  | .array [] => ['[', ']']
  | .array (item :: rest) =>
    '[' :: layout.lineBreak (depth + 1) ++ item.chars layout (depth + 1) ++
      restChars layout (depth + 1) rest ++ layout.lineBreak depth ++ [']']
  | .object [] => ['{', '}']
  | .object ((name, value) :: rest) =>
    '{' :: layout.lineBreak (depth + 1) ++ quotedChars name ++ layout.colon ++
      value.chars layout (depth + 1) ++ restMemberChars layout (depth + 1) rest ++
      layout.lineBreak depth ++ ['}']
  | .misnamed _ => []
  | .unreadable => []
  | .broken => []

def restChars (layout : Layout) (depth : Nat) : List Json → List Char
  | [] => []
  | item :: rest =>
    ',' :: layout.lineBreak depth ++ item.chars layout depth ++ restChars layout depth rest

def restMemberChars (layout : Layout) (depth : Nat) : List (String × Json) → List Char
  | [] => []
  | (name, value) :: rest =>
    ',' :: layout.lineBreak depth ++ quotedChars name ++ layout.colon ++
      value.chars layout depth ++ restMemberChars layout depth rest

end

def render (value : Json) (layout : Layout) : String :=
  String.ofList (value.chars layout 0)

end RightsPolicy.Json
