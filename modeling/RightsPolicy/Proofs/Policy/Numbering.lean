import RightsPolicy.Policy.Basic

namespace RightsPolicy

namespace RuleId

def ofNat (n : Nat) : RuleId :=
  ⟨UInt64.ofNat n⟩

theorem next_ofNat (n : Nat) : (ofNat n).next = ofNat (n + 1) := by
  simp [next, ofNat, UInt64.ofNat_add]

variable {α : Type}

def number (withId : α → RuleId → α) (first : Nat) (rules : List α) : List α :=
  rules.mapIdx fun index rule => withId rule (ofNat (first + index))

theorem number_cons (withId : α → RuleId → α) (first : Nat) (rule : α) (rules : List α) :
    number withId first (rule :: rules) =
      withId rule (ofNat first) :: number withId (first + 1) rules := by
  simp [number, List.mapIdx_cons, Nat.add_assoc, Nat.add_comm 1]

@[simp]
theorem length_number (withId : α → RuleId → α) (first : Nat) (rules : List α) :
    (number withId first rules).length = rules.length := by
  simp [number]

variable {withId : α → RuleId → α}

theorem number_map (hwithId : ∀ rule a b, withId (withId rule a) b = withId rule b)
    (f : α → RuleId) (first : Nat) (rules : List α) :
    number withId first (rules.map fun rule => withId rule (f rule)) =
      number withId first rules := by
  induction rules generalizing first with
  | nil => rfl
  | cons rule rules ih => rw [List.map_cons, number_cons, number_cons, hwithId, ih]

theorem number_number (hwithId : ∀ rule a b, withId (withId rule a) b = withId rule b)
    (first second : Nat) (rules : List α) :
    number withId second (number withId first rules) = number withId second rules := by
  induction rules generalizing first second with
  | nil => rfl
  | cons rule rules ih => rw [number_cons, number_cons, number_cons, hwithId, ih]

end RuleId

namespace OdrlRule

def withId (rule : OdrlRule) (id : RuleId) : OdrlRule :=
  { rule with id := id }

theorem withId_withId (rule : OdrlRule) (a b : RuleId) :
    (rule.withId a).withId b = rule.withId b :=
  rfl

end OdrlRule

namespace GenericRule

def withId (rule : GenericRule) (id : RuleId) : GenericRule :=
  { rule with id := id }

theorem withId_withId (rule : GenericRule) (a b : RuleId) :
    (rule.withId a).withId b = rule.withId b :=
  rfl

end GenericRule

namespace OdrlPolicy

def renumbered (policy : OdrlPolicy) : OdrlPolicy :=
  let prohibitions := 1 + policy.permission.length
  let obligations := prohibitions + policy.prohibition.length
  { policy with
    permission := RuleId.number OdrlRule.withId 1 policy.permission
    prohibition := RuleId.number OdrlRule.withId prohibitions policy.prohibition
    obligation := RuleId.number OdrlRule.withId obligations policy.obligation
    nextRuleId := RuleId.ofNat (obligations + policy.obligation.length) }

theorem renumbered_renumbered (policy : OdrlPolicy) :
    policy.renumbered.renumbered = policy.renumbered := by
  simp only [renumbered, RuleId.length_number, RuleId.number_number OdrlRule.withId_withId]

theorem foldl_push (policy : OdrlPolicy) (partition : Partition) (rules : List OdrlRule)
    (first : Nat) (hfirst : policy.nextRuleId = RuleId.ofNat first) :
    rules.foldl (·.push partition ·) policy =
      { policy.setRulesIn partition
          (policy.rulesIn partition ++ RuleId.number OdrlRule.withId first rules) with
        nextRuleId := RuleId.ofNat (first + rules.length) } := by
  induction rules generalizing policy first with
  | nil =>
    cases partition <;>
      simp [RuleId.number, setRulesIn, rulesIn, ← hfirst]
  | cons rule rules ih =>
    have hnext : (policy.push partition rule).nextRuleId = RuleId.ofNat (first + 1) := by
      rw [push, hfirst, RuleId.next_ofNat]
    rw [List.foldl_cons, ih _ _ hnext, RuleId.number_cons]
    have hlength : first + 1 + rules.length = first + (rule :: rules).length := by
      rw [List.length_cons]
      omega
    rw [hlength]
    cases partition <;>
      simp [push, setRulesIn, rulesIn, hfirst, OdrlRule.withId]

theorem push_all (policy : OdrlPolicy) (hnext : policy.nextRuleId = ⟨1⟩)
    (hempty : ∀ partition, policy.rulesIn partition = [])
    (permission prohibition obligation : List OdrlRule) :
    obligation.foldl (·.push .obligation ·)
        (prohibition.foldl (·.push .prohibition ·)
          (permission.foldl (·.push .permission ·) policy)) =
      renumbered { policy with
        permission := permission, prohibition := prohibition, obligation := obligation } := by
  have hone : policy.nextRuleId = RuleId.ofNat 1 := hnext
  have hpermission : policy.permission = [] := hempty .permission
  have hprohibition : policy.prohibition = [] := hempty .prohibition
  have hobligation : policy.obligation = [] := hempty .obligation
  rw [foldl_push policy .permission permission 1 hone, foldl_push _ .prohibition _ _ rfl,
    foldl_push _ .obligation _ _ rfl]
  simp [renumbered, setRulesIn, rulesIn, hpermission, hprohibition, hobligation]

end OdrlPolicy

namespace GenericPolicy

def renumbered (policy : GenericPolicy) : GenericPolicy :=
  { policy with
    rules := RuleId.number GenericRule.withId 1 policy.rules
    nextRuleId := RuleId.ofNat (1 + policy.rules.length) }

theorem renumbered_renumbered (policy : GenericPolicy) :
    policy.renumbered.renumbered = policy.renumbered := by
  simp only [renumbered, RuleId.length_number, RuleId.number_number GenericRule.withId_withId]

theorem foldl_push (policy : GenericPolicy) (rules : List GenericRule) (first : Nat)
    (hfirst : policy.nextRuleId = RuleId.ofNat first) :
    rules.foldl GenericPolicy.push policy =
      { policy with
        rules := policy.rules ++ RuleId.number GenericRule.withId first rules
        nextRuleId := RuleId.ofNat (first + rules.length) } := by
  induction rules generalizing policy first with
  | nil => simp [RuleId.number, ← hfirst]
  | cons rule rules ih =>
    have hnext : (policy.push rule).nextRuleId = RuleId.ofNat (first + 1) := by
      rw [push, hfirst, RuleId.next_ofNat]
    have hlength : first + 1 + rules.length = first + (rule :: rules).length := by
      rw [List.length_cons]
      omega
    rw [List.foldl_cons, ih _ _ hnext, RuleId.number_cons, hlength]
    simp [push, hfirst, GenericRule.withId]

theorem push_all (policy : GenericPolicy) (hnext : policy.nextRuleId = ⟨1⟩)
    (hempty : policy.rules = []) (rules : List GenericRule) :
    rules.foldl GenericPolicy.push policy = renumbered { policy with rules := rules } := by
  have hone : policy.nextRuleId = RuleId.ofNat 1 := hnext
  rw [foldl_push policy rules 1 hone]
  simp [renumbered, hempty]

end GenericPolicy

namespace Policy

def renumbered : Policy → Policy
  | .odrl policy => .odrl policy.renumbered
  | .generic policy => .generic policy.renumbered

end Policy

end RightsPolicy
