import RightsPolicy.Calendar.Instant
import RightsPolicy.Error
import RightsPolicy.Policy.Rule
import RightsPolicy.TextSet

namespace RightsPolicy

structure Notifications where
  onViolation : Bool
  onExpiry : Bool
  recipients : List String
  deriving DecidableEq, Repr

def Notifications.silent : Notifications :=
  ⟨false, false, []⟩

structure GenericPolicy where
  id : Option UInt64
  name : String
  description : String
  kind : GenericKind
  status : Status
  priority : Int32
  targetResources : TextSet
  targetUsers : TextSet
  validFrom : Option Instant
  validTo : Option Instant
  rules : List GenericRule
  notifications : Notifications
  enforcement : Enforcement
  nextRuleId : RuleId
  deriving DecidableEq

inductive GenericField where
  | id (value : Option UInt64)
  | name (value : String)
  | description (value : String)
  | kind (value : GenericKind)
  | status (value : Status)
  | priority (value : Int32)
  | targetResources (value : TextSet)
  | targetUsers (value : TextSet)
  | validFrom (value : Option Instant)
  | validTo (value : Option Instant)
  | notifications (value : Notifications)
  | enforcement (value : Enforcement)
  deriving DecidableEq

namespace GenericPolicy

def new (kind : GenericKind) : GenericPolicy where
  id := none
  name := ""
  description := ""
  kind := kind
  status := default
  priority := 0
  targetResources := .empty
  targetUsers := .empty
  validFrom := none
  validTo := none
  rules := []
  notifications := .silent
  enforcement := default
  nextRuleId := ⟨1⟩

instance : Inhabited GenericPolicy where
  default := new default

def set (policy : GenericPolicy) : GenericField → GenericPolicy
  | .id value => { policy with id := value }
  | .name value => { policy with name := value }
  | .description value => { policy with description := value }
  | .kind value => { policy with kind := value }
  | .status value => { policy with status := value }
  | .priority value => { policy with priority := value }
  | .targetResources value => { policy with targetResources := value }
  | .targetUsers value => { policy with targetUsers := value }
  | .validFrom value => { policy with validFrom := value }
  | .validTo value => { policy with validTo := value }
  | .notifications value => { policy with notifications := value }
  | .enforcement value => { policy with enforcement := value }

def addTargetResource (policy : GenericPolicy) (resource : String) : GenericPolicy :=
  { policy with targetResources := policy.targetResources.insert resource }

def addTargetUser (policy : GenericPolicy) (user : String) : GenericPolicy :=
  { policy with targetUsers := policy.targetUsers.insert user }

def place? (policy : GenericPolicy) (id : RuleId) : Option Nat :=
  policy.rules.findIdx? fun rule => rule.id = id

def rule? (policy : GenericPolicy) (id : RuleId) : Option GenericRule :=
  policy.rules.find? fun rule => rule.id = id

def push (policy : GenericPolicy) (rule : GenericRule) : GenericPolicy :=
  let id := policy.nextRuleId
  { policy with rules := policy.rules ++ [{ rule with id := id }], nextRuleId := id.next }

def addRule (policy : GenericPolicy) : GenericPolicy × RuleId :=
  (policy.push (GenericRule.empty ⟨0⟩), policy.nextRuleId)

def updateRule (policy : GenericPolicy) (id : RuleId) (field : GenericRuleField) :
    Except PolicyError GenericPolicy :=
  match policy.place? id with
  | none => .error (.ruleNotFound id)
  | some index =>
    .ok { policy with rules := policy.rules.modify index fun rule => rule.set field }

def removeRule (policy : GenericPolicy) (id : RuleId) : Except PolicyError GenericPolicy :=
  match policy.place? id with
  | none => .error (.ruleNotFound id)
  | some index => .ok { policy with rules := policy.rules.eraseIdx index }

end GenericPolicy

end RightsPolicy
