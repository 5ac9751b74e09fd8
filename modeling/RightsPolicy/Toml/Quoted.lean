import RightsPolicy.Text.Digits

namespace RightsPolicy.Toml.Quoted

def isBlank (c : Char) : Bool :=
  c = ' ' || c = '\t'

def isPlain (c : Char) : Bool :=
  c = '\t' || (0x20 ≤ c.toNat && c.toNat ≠ 0x7F)

def unescape? (c : Char) : Option Char :=
  match c with
  | '"' => some '"'
  | '\\' => some '\\'
  | 'b' => some '\x08'
  | 'f' => some '\x0c'
  | 'n' => some '\n'
  | 'r' => some '\r'
  | 't' => some '\t'
  | _ => none

def ofHex? (digits : List Char) : Option Char :=
  (Text.hexDigitsValue? digits).bind fun n => if n.isValidChar then some (Char.ofNat n) else none

def push (c : Char) (read : Option (List Char × List Char)) : Option (List Char × List Char) :=
  read.map fun (cs, rest) => (c :: cs, rest)

def basic : List Char → Option (List Char × List Char)
  | [] => none
  | '"' :: rest => some ([], rest)
  | '\\' :: 'u' :: a :: b :: c :: d :: rest =>
    (ofHex? [a, b, c, d]).bind fun x => push x (basic rest)
  | '\\' :: 'U' :: a :: b :: c :: d :: e :: f :: g :: h :: rest =>
    (ofHex? [a, b, c, d, e, f, g, h]).bind fun x => push x (basic rest)
  | '\\' :: c :: rest => (unescape? c).bind fun x => push x (basic rest)
  | c :: rest => if isPlain c && c ≠ '\\' then push c (basic rest) else none

def literal : List Char → Option (List Char × List Char)
  | [] => none
  | '\'' :: rest => some ([], rest)
  | c :: rest => if isPlain c then push c (literal rest) else none

def runLength (c : Char) (cs : List Char) : Nat :=
  (cs.takeWhile (· = c)).length

def closing (quote : Char) (cs : List Char) : Option (List Char × List Char) :=
  let count := runLength quote cs
  if count ≤ 5 then some (List.replicate (count - 3) quote, cs.drop count) else none

def startsLine : List Char → Bool
  | '\n' :: _ => true
  | '\r' :: '\n' :: _ => true
  | _ => false

def basicLines (joining : Bool) : List Char → Option (List Char × List Char)
  | [] => none
  | '\r' :: '\n' :: rest =>
    if joining then basicLines true rest else push '\n' (basicLines false rest)
  | '\n' :: rest => if joining then basicLines true rest else push '\n' (basicLines false rest)
  | '\\' :: 'u' :: a :: b :: c :: d :: rest =>
    (ofHex? [a, b, c, d]).bind fun x => push x (basicLines false rest)
  | '\\' :: 'U' :: a :: b :: c :: d :: e :: f :: g :: h :: rest =>
    (ofHex? [a, b, c, d, e, f, g, h]).bind fun x => push x (basicLines false rest)
  | '\\' :: c :: rest =>
    match unescape? c with
    | some x => push x (basicLines false rest)
    | none =>
      if startsLine ((c :: rest).dropWhile isBlank) then basicLines true (c :: rest) else none
  | c :: rest =>
    if joining && isBlank c then basicLines true rest
    else if c = '"' && 3 ≤ runLength '"' (c :: rest) then closing '"' (c :: rest)
    else if isPlain c && c ≠ '\\' then push c (basicLines false rest)
    else none

def literalLines : List Char → Option (List Char × List Char)
  | [] => none
  | '\r' :: '\n' :: rest => push '\n' (literalLines rest)
  | '\n' :: rest => push '\n' (literalLines rest)
  | c :: rest =>
    if c = '\'' && 3 ≤ runLength '\'' (c :: rest) then closing '\'' (c :: rest)
    else if isPlain c then push c (literalLines rest)
    else none

def dropLineBreak : List Char → List Char
  | '\n' :: rest => rest
  | '\r' :: '\n' :: rest => rest
  | cs => cs

def line? : List Char → Option (List Char × List Char)
  | '"' :: rest => basic rest
  | '\'' :: rest => literal rest
  | _ => none

def read? : List Char → Option (List Char × List Char)
  | '"' :: '"' :: '"' :: rest => basicLines false (dropLineBreak rest)
  | '\'' :: '\'' :: '\'' :: rest => literalLines (dropLineBreak rest)
  | cs => line? cs

end RightsPolicy.Toml.Quoted
