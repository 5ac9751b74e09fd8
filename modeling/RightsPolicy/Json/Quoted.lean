import RightsPolicy.Text.Digits

namespace RightsPolicy.Json.Quoted

def escape (c : Char) : List Char :=
  if c = '"' then ['\\', '"']
  else if c = '\\' then ['\\', '\\']
  else if c = '\n' then ['\\', 'n']
  else if c = '\r' then ['\\', 'r']
  else if c = '\t' then ['\\', 't']
  else if c = '\x08' then ['\\', 'b']
  else if c = '\x0c' then ['\\', 'f']
  else if c.toNat < 0x20 then
    '\\' :: 'u' :: Text.hexDigits c.toNat 4
  else [c]

def encode (cs : List Char) : List Char :=
  cs.flatMap escape

def unescape? (c : Char) : Option Char :=
  match c with
  | '"' => some '"'
  | '\\' => some '\\'
  | '/' => some '/'
  | 'b' => some '\x08'
  | 'f' => some '\x0c'
  | 'n' => some '\n'
  | 'r' => some '\r'
  | 't' => some '\t'
  | _ => none

/-- The code units of a quoted text: a code point for each character, and for a `\u` escape what it
says, which may be one half of a surrogate pair. None when the text has an unknown escape or a
control character. -/
def units? : List Char → Option (List Nat)
  | [] => some []
  | '\\' :: 'u' :: a :: b :: c :: d :: rest =>
    match Text.hexDigitsValue? [a, b, c, d] with
    | some n => (units? rest).map (n :: ·)
    | none => none
  | '\\' :: c :: rest =>
    match unescape? c with
    | some e => (units? rest).map (e.toNat :: ·)
    | none => none
  | c :: rest => if c.toNat < 0x20 ∨ c = '\\' then none else (units? rest).map (c.toNat :: ·)

def isHighSurrogate (n : Nat) : Bool :=
  0xD800 ≤ n && n ≤ 0xDBFF

def isLowSurrogate (n : Nat) : Bool :=
  0xDC00 ≤ n && n ≤ 0xDFFF

def join? : List Nat → Option (List Char)
  | [] => some []
  | n :: rest =>
    if isHighSurrogate n then
      match rest with
      | m :: rest =>
        if isLowSurrogate m then
          (join? rest).map (Char.ofNat ((n - 0xD800) * 0x400 + (m - 0xDC00) + 0x10000) :: ·)
        else
          none
      | [] => none
    else if isLowSurrogate n then
      none
    else
      (join? rest).map (Char.ofNat n :: ·)

end RightsPolicy.Json.Quoted
