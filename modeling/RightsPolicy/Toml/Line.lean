import RightsPolicy.Toml.Quoted
import RightsPolicy.Toml.Scalar
import RightsPolicy.Toml.Table

namespace RightsPolicy.Toml

abbrev Reader (α : Type) := List Char → Option (α × List Char)

inductive Line where
  | header (path : Path)
  | itemHeader (path : Path)
  | pair (path : Path) (value : Toml)
  deriving Repr

def dropBlanks (cs : List Char) : List Char :=
  cs.dropWhile Quoted.isBlank

def endLine? (cs : List Char) : Option (List Char) :=
  let cs := dropBlanks cs
  let cs :=
    match cs with
    | '#' :: comment => comment.dropWhile Quoted.isPlain
    | cs => cs
  match cs with
  | [] => some []
  | '\n' :: rest => some rest
  | '\r' :: '\n' :: rest => some rest
  | _ => none

def dropLines (inComment : Bool) : List Char → List Char
  | [] => []
  | '\n' :: rest => dropLines false rest
  | '\r' :: '\n' :: rest => dropLines false rest
  | c :: rest =>
    if inComment && Quoted.isPlain c || Quoted.isBlank c then dropLines inComment rest
    else if !inComment && c = '#' then dropLines true rest
    else c :: rest

def isKeyPart (c : Char) : Bool :=
  c.isAlphanum || c = '_' || c = '-'

def name? : Reader String := fun cs =>
  match Quoted.line? cs with
  | some (name, rest) => some (String.ofList name, rest)
  | none =>
    let name := cs.takeWhile isKeyPart
    if name.isEmpty then none else some (String.ofList name, cs.drop name.length)

/-- The most names that a key may have, and the most arrays and braces that may be open at once. -/
def depthLimit : Nat := 79

def names? (levels : Nat) : Reader Path := fun cs =>
  match levels, name? (dropBlanks cs) with
  | levels + 1, some (name, rest) =>
    match dropBlanks rest with
    | '.' :: rest =>
      (names? levels rest).map fun (path, rest) => (⟨name :: path.way, path.last⟩, rest)
    | rest => some (⟨[], name⟩, rest)
  | _, _ => none

def path? : Reader Path :=
  names? depthLimit

def items (item : Reader Toml) (cs : List Char) : Option (List Toml × List Char) :=
  match dropLines false cs with
  | ']' :: rest => some ([], rest)
  | start =>
    match item start with
    | none => none
    | some (value, rest) =>
      match dropLines false rest with
      | ']' :: rest => some ([value], rest)
      | ',' :: rest =>
        if rest.length < cs.length then
          (items item rest).map fun (values, rest) => (value :: values, rest)
        else
          none
      | _ => none
termination_by cs.length

def pair (value : Reader Toml) : Reader (Path × Toml) := fun cs =>
  match path? cs with
  | some (path, '=' :: rest) =>
    (value (dropBlanks rest)).map fun (value, rest) => ((path, value), rest)
  | _ => none

def pairs (value : Reader Toml) (cs : List Char) : Option (List (Path × Toml) × List Char) :=
  match pair value cs with
  | none => none
  | some (first, rest) =>
    match dropBlanks rest with
    | '}' :: rest => some ([first], rest)
    | ',' :: rest =>
      if rest.length < cs.length then
        (pairs value rest).map fun (others, rest) => (first :: others, rest)
      else
        none
    | _ => none
termination_by cs.length

def braces (value : Reader Toml) (cs : List Char) : Option (Toml × List Char) :=
  match dropBlanks cs with
  | '}' :: rest => some (.table .braces [], rest)
  | cs => do
    let (pairs, rest) ← pairs value cs
    let members ← ofPairs? pairs
    some (.table .braces members, rest)

def quoted? : Reader Toml := fun cs =>
  (Quoted.read? cs).map fun (cs, rest) => (.text (String.ofList cs), rest)

def value : Nat → Reader Toml
  | levels, '[' :: rest =>
    match levels with
    | 0 => none
    | levels + 1 => (items (value levels) rest).map fun (items, rest) => (.array items, rest)
  | levels, '{' :: rest =>
    match levels with
    | 0 => none
    | levels + 1 => braces (value levels) rest
  | _, cs =>
    match cs with
    | '"' :: _ => quoted? cs
    | '\'' :: _ => quoted? cs
    | _ => Scalar.read? cs

def header? (cs : List Char) : Option (Line × List Char) :=
  match cs with
  | '[' :: rest =>
    match path? rest with
    | some (path, ']' :: ']' :: rest) => some (.itemHeader path, rest)
    | _ => none
  | cs =>
    match path? cs with
    | some (path, ']' :: rest) => some (.header path, rest)
    | _ => none

def line? (cs : List Char) : Option (Line × List Char) :=
  match cs with
  | '[' :: rest => header? rest
  | cs => (pair (value depthLimit) cs).map fun ((path, value), rest) => (.pair path value, rest)

def lines (cs : List Char) : Option (List Line) :=
  match dropLines false cs with
  | [] => some []
  | start =>
    match line? start with
    | none => none
    | some (line, rest) =>
      match endLine? rest with
      | none => none
      | some rest =>
        if rest.length < cs.length then
          (lines rest).map fun others => line :: others
        else
          none
termination_by cs.length

end RightsPolicy.Toml
