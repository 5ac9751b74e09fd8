import RightsPolicy.Toml.Value

namespace RightsPolicy.Toml

structure Path where
  way : List String
  last : String
  deriving DecidableEq, Repr

abbrev Members := List (String × Toml)

structure OpenTable where
  origin : TableOrigin
  members : Members

inductive Passing where
  | header
  | key
  deriving DecidableEq, Repr

def Passing.origin : Passing → TableOrigin
  | .header => .passage
  | .key => .dotted

def put (name : String) (value : Toml) : Members → Members
  | [] => [(name, value)]
  | (other, old) :: rest =>
    if other = name then (name, value) :: rest else (other, old) :: put name value rest

def edit (passing : Passing) (change : OpenTable → Option Members) (table : OpenTable) :
    List String → Option Members
  | [] => change table
  | name :: way =>
    let go (origin : TableOrigin) (members : Members) : Option Members :=
      edit passing change ⟨origin, members⟩ way
    match lookup? name table.members with
    | none => (go passing.origin []).map fun members =>
      put name (.table passing.origin members) table.members
    | some (.table origin members) =>
      if origin = .braces || (passing = .key && !origin.isOpenToKeys) then none
      else (go origin members).map fun members => put name (.table origin members) table.members
    | some (.tables earlier last) =>
      (go .header last).map fun last => put name (.tables earlier last) table.members
    | some _ => none

/-- Put a new name into the table at the end of a dotted key. A key without points may go into any
table but one that dotted keys have made, a dotted key only into such a table. -/
def insertPair (path : Path) (value : Toml) (table : OpenTable) : Option Members :=
  edit .key (fun table =>
    if (table.origin == .dotted) == path.way.isEmpty then none
    else if (lookup? path.last table.members).isSome then none
    else some (put path.last value table.members)) table path.way

def ofPairs? (pairs : List (Path × Toml)) : Option Members :=
  pairs.foldlM (fun members (path, value) => insertPair path value ⟨.header, members⟩) []

def openTable (path : Path) (table : OpenTable) : Option Members :=
  edit .header (fun table =>
    match lookup? path.last table.members with
    | none => some (put path.last (.table .header []) table.members)
    | some (.table .passage members) =>
      some (put path.last (.table .header members) table.members)
    | some _ => none) table path.way

def openItem (path : Path) (table : OpenTable) : Option Members :=
  edit .header (fun table =>
    match lookup? path.last table.members with
    | none => some (put path.last (.tables [] []) table.members)
    | some (.tables earlier last) =>
      some (put path.last (.tables (earlier ++ [.table .header last]) []) table.members)
    | some _ => none) table path.way

end RightsPolicy.Toml
