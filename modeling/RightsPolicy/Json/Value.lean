import RightsPolicy.Decimal.Binary64

namespace RightsPolicy

inductive Json where
  | null
  | bool (value : Bool)
  | integer (value : Int)
  | decimal (value : Binary64)
  | text (value : String)
  | array (items : List Json)
  | object (members : List (String × Json))
  | misnamed (members : List (String × Json))
  /-- A number beyond the doubles, a text with a lone surrogate, or what is nested too deep: it can
  be passed over, but it has no value. -/
  | unreadable
  | broken
  deriving Repr

namespace Json

mutual

def isWhole : Json → Bool
  | .array items => areWhole items
  | .object members => membersAreWhole members
  | .broken => false
  | _ => true

def areWhole : List Json → Bool
  | [] => true
  | item :: rest => item.isWhole && areWhole rest

def membersAreWhole : List (String × Json) → Bool
  | [] => true
  | (_, value) :: rest => value.isWhole && membersAreWhole rest

end

mutual

def isReadable : Json → Bool
  | .array items => areReadable items
  | .object members => membersAreReadable members
  | .misnamed _ => false
  | .unreadable => false
  | .broken => false
  | _ => true

def areReadable : List Json → Bool
  | [] => true
  | item :: rest => item.isReadable && areReadable rest

def membersAreReadable : List (String × Json) → Bool
  | [] => true
  | (_, value) :: rest => value.isReadable && membersAreReadable rest

end

def putSorted (name : String) (value : Json) : List (String × Json) → List (String × Json)
  | [] => [(name, value)]
  | (other, old) :: rest =>
    if name < other then
      (name, value) :: (other, old) :: rest
    else if name = other then
      (name, value) :: rest
    else
      (other, old) :: putSorted name value rest

mutual

def sorted : Json → Json
  | .array items => .array (sortedItems items)
  | .object members => .object (sortedMembers members [])
  | value => value

def sortedItems : List Json → List Json
  | [] => []
  | item :: rest => item.sorted :: sortedItems rest

def sortedMembers : List (String × Json) → List (String × Json) → List (String × Json)
  | [], done => done
  | (name, value) :: rest, done => sortedMembers rest (putSorted name value.sorted done)

end

end Json

end RightsPolicy
