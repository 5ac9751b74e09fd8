import RightsPolicy.Vocabulary.Basic

namespace RightsPolicy

inductive Family where
  | odrl
  | generic
  deriving DecidableEq, Repr

def Family.term : Family → String
  | .odrl => "odrl"
  | .generic => "generic"

instance : Vocabulary Family where
  label := "policy family"
  values :=
    [.odrl, .generic]
  term := Family.term
  complete a := by cases a <;> decide
  distinct := by decide
  written := by decide

end RightsPolicy
