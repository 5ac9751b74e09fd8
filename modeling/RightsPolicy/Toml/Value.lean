namespace RightsPolicy

inductive TableOrigin where
  | braces
  | header
  | passage
  | dotted
  deriving DecidableEq, Repr

def TableOrigin.isOpenToKeys : TableOrigin → Bool
  | .passage => true
  | .dotted => true
  | .header => false
  | .braces => false

inductive Toml where
  | text (value : String)
  | flag (value : Bool)
  | number
  | moment
  | array (items : List Toml)
  | table (origin : TableOrigin) (members : List (String × Toml))
  | tables (earlier : List Toml) (last : List (String × Toml))
  deriving Repr

namespace Toml

def text? : Toml → Option String
  | .text value => some value
  | _ => none

def flag? : Toml → Option Bool
  | .flag value => some value
  | _ => none

def isEmptyContainer : Toml → Bool
  | .array items => items.isEmpty
  | .table _ members => members.isEmpty
  | _ => false

def lookup? (name : String) (members : List (String × Toml)) : Option Toml :=
  (members.find? fun member => member.1 = name).map (·.2)

end Toml

end RightsPolicy
