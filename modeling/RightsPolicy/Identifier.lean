import RightsPolicy.Identifier.Uuid

namespace RightsPolicy

structure RuleId where
  value : UInt64
  deriving DecidableEq, Repr

namespace RuleId

def next (id : RuleId) : RuleId :=
  ⟨id.value + 1⟩

def text (id : RuleId) : String :=
  Nat.repr id.value.toNat

instance : Ord RuleId where
  compare a b := compare a.value b.value

end RuleId

structure PolicyKey where
  text : String
  deriving DecidableEq, Hashable, Repr

namespace PolicyKey

instance : Ord PolicyKey where
  compare a b := compare a.text b.text

def generated (keyPrefix : String) (uuid : Uuid) : PolicyKey :=
  ⟨keyPrefix ++ uuid.text⟩

def ofId (id : UInt64) : PolicyKey :=
  ⟨Nat.repr id.toNat⟩

end PolicyKey

end RightsPolicy
