import RightsPolicy.Vocabulary.Odrl
import RightsPolicy.Vocabulary.Generic

namespace RightsPolicy.Vocabulary

structure Table where
  name : String
  terms : List String
  deriving Repr

def tables : List Table :=
  [⟨"policy-kinds", terms OdrlKind⟩, ⟨"actions", terms Action⟩,
    ⟨"operators", terms ConstraintOperator⟩, ⟨"left-operands", terms LeftOperand⟩,
    ⟨"generic-kinds", terms GenericKind⟩, ⟨"rule-types", terms RuleType⟩,
    ⟨"comparison-operators", terms ComparisonOperator⟩, ⟨"statuses", terms Status⟩,
    ⟨"enforcement-modes", terms Enforcement⟩]

def table? (name : String) : Option (List String) :=
  (tables.find? fun table => table.name = name).map (·.terms)

end RightsPolicy.Vocabulary
