import RightsPolicy.Policy.Generic
import RightsPolicy.Policy.Odrl
import RightsPolicy.Text.Blank
import RightsPolicy.Vocabulary.Family

namespace RightsPolicy

inductive Policy where
  | odrl (policy : OdrlPolicy)
  | generic (policy : GenericPolicy)
  deriving DecidableEq

namespace Policy

def create : Family → Policy
  | .odrl => .odrl (OdrlPolicy.new default)
  | .generic => .generic (GenericPolicy.new default)

def family : Policy → Family
  | .odrl _ => .odrl
  | .generic _ => .generic

def kindTerm : Policy → String
  | .odrl policy => Vocabulary.term policy.kind
  | .generic policy => Vocabulary.term policy.kind

def ownKey? : Policy → Option PolicyKey
  | .odrl policy => if Text.isBlank policy.uid then none else some ⟨policy.uid⟩
  | .generic policy => policy.id.map PolicyKey.ofId

def text : Policy → String
  | .odrl policy =>
    Vocabulary.term policy.kind ++ " " ++ (if policy.uid = "" then "<no uid>" else policy.uid) ++
      " (" ++ Nat.repr policy.ruleCount ++ " rules)"
  | .generic policy =>
    Vocabulary.term policy.kind ++ " policy '" ++ policy.name ++ "' (" ++
      Nat.repr policy.rules.length ++ " rules)"

end Policy

end RightsPolicy
