import RightsPolicy.Error
import RightsPolicy.Policy.Rule

namespace RightsPolicy

structure OdrlPolicy where
  uid : String
  kind : OdrlKind
  profile : Option String
  assigner : String
  assignee : String
  target : String
  permission : List OdrlRule
  prohibition : List OdrlRule
  obligation : List OdrlRule
  nextRuleId : RuleId
  deriving DecidableEq, Repr

inductive OdrlField where
  | uid (value : String)
  | kind (value : OdrlKind)
  | profile (value : Option String)
  | assigner (value : String)
  | assignee (value : String)
  | target (value : String)
  deriving DecidableEq, Repr

namespace OdrlPolicy

def new (kind : OdrlKind) : OdrlPolicy where
  uid := ""
  kind := kind
  profile := none
  assigner := ""
  assignee := ""
  target := ""
  permission := []
  prohibition := []
  obligation := []
  nextRuleId := ⟨1⟩

instance : Inhabited OdrlPolicy where
  default := new default

def set (policy : OdrlPolicy) : OdrlField → OdrlPolicy
  | .uid value => { policy with uid := value }
  | .kind value => { policy with kind := value }
  | .profile value => { policy with profile := value }
  | .assigner value => { policy with assigner := value }
  | .assignee value => { policy with assignee := value }
  | .target value => { policy with target := value }

def rulesIn (policy : OdrlPolicy) : Partition → List OdrlRule
  | .permission => policy.permission
  | .prohibition => policy.prohibition
  | .obligation => policy.obligation

def setRulesIn (policy : OdrlPolicy) (partition : Partition) (rules : List OdrlRule) :
    OdrlPolicy :=
  match partition with
  | .permission => { policy with permission := rules }
  | .prohibition => { policy with prohibition := rules }
  | .obligation => { policy with obligation := rules }

def rules (policy : OdrlPolicy) : List (Partition × OdrlRule) :=
  (Vocabulary.values (α := Partition)).flatMap fun partition =>
    (policy.rulesIn partition).map fun rule => (partition, rule)

def ruleCount (policy : OdrlPolicy) : Nat :=
  policy.permission.length + policy.prohibition.length + policy.obligation.length

def place? (policy : OdrlPolicy) (id : RuleId) : Option (Partition × Nat) :=
  (Vocabulary.values (α := Partition)).findSome? fun partition =>
    ((policy.rulesIn partition).findIdx? fun rule => rule.id = id).map fun index =>
      (partition, index)

def rule? (policy : OdrlPolicy) (id : RuleId) : Option (Partition × OdrlRule) :=
  policy.rules.find? fun entry => entry.2.id = id

def push (policy : OdrlPolicy) (partition : Partition) (rule : OdrlRule) : OdrlPolicy :=
  let id := policy.nextRuleId
  { policy.setRulesIn partition (policy.rulesIn partition ++ [{ rule with id := id }]) with
    nextRuleId := id.next }

def addRule (policy : OdrlPolicy) (partition : Partition) : OdrlPolicy × RuleId :=
  (policy.push partition (OdrlRule.empty ⟨0⟩), policy.nextRuleId)

def withRule (policy : OdrlPolicy) (partition : Partition) (action : Action) :
    OdrlPolicy × RuleId :=
  (policy.push partition { OdrlRule.empty ⟨0⟩ with action := some action }, policy.nextRuleId)

def editRule (policy : OdrlPolicy) (id : RuleId)
    (edit : OdrlRule → Except PolicyError OdrlRule) : Except PolicyError OdrlPolicy :=
  match policy.place? id with
  | none => .error (.ruleNotFound id)
  | some (partition, index) =>
    match (policy.rulesIn partition)[index]? with
    | none => .error (.ruleNotFound id)
    | some rule =>
      (edit rule).map fun edited =>
        policy.setRulesIn partition ((policy.rulesIn partition).set index edited)

def updateRule (policy : OdrlPolicy) (id : RuleId) (field : OdrlRuleField) :
    Except PolicyError OdrlPolicy :=
  policy.editRule id fun rule => .ok (rule.set field)

def removeRule (policy : OdrlPolicy) (id : RuleId) : Except PolicyError OdrlPolicy :=
  match policy.place? id with
  | none => .error (.ruleNotFound id)
  | some (partition, index) =>
    .ok (policy.setRulesIn partition ((policy.rulesIn partition).eraseIdx index))

def addConstraint (policy : OdrlPolicy) (id : RuleId) : Except PolicyError (OdrlPolicy × Nat) :=
  match policy.rule? id with
  | none => .error (.ruleNotFound id)
  | some (_, rule) =>
    (policy.editRule id fun rule =>
      .ok { rule with constraints := rule.constraints ++ [Constraint.empty] }).map
      fun policy => (policy, rule.constraints.length)

def updateConstraint (policy : OdrlPolicy) (id : RuleId) (index : Nat)
    (field : ConstraintField) : Except PolicyError OdrlPolicy :=
  policy.editRule id fun rule =>
    match rule.constraints[index]? with
    | none => .error (.constraintNotFound id index)
    | some constraint =>
      .ok { rule with constraints := rule.constraints.set index (constraint.set field) }

def removeConstraint (policy : OdrlPolicy) (id : RuleId) (index : Nat) :
    Except PolicyError OdrlPolicy :=
  policy.editRule id fun rule =>
    if index < rule.constraints.length then
      .ok { rule with constraints := rule.constraints.eraseIdx index }
    else
      .error (.constraintNotFound id index)

end OdrlPolicy

end RightsPolicy
