import Mathlib.Data.List.Forall2
import RightsPolicy.Proofs.Document.ReadBack
import RightsPolicy.Validation

namespace RightsPolicy

def OdrlRule.SameButId (a b : OdrlRule) : Prop :=
  b = { a with id := b.id }

def GenericRule.SameButId (a b : GenericRule) : Prop :=
  b = { a with id := b.id }

structure OdrlPolicy.SameButIds (p q : OdrlPolicy) : Prop where
  rest : q = { p with
    permission := q.permission
    prohibition := q.prohibition
    obligation := q.obligation
    nextRuleId := q.nextRuleId }
  rules : ∀ partition,
    List.Forall₂ OdrlRule.SameButId (p.rulesIn partition) (q.rulesIn partition)

structure GenericPolicy.SameButIds (p q : GenericPolicy) : Prop where
  rest : q = { p with rules := q.rules, nextRuleId := q.nextRuleId }
  rules : List.Forall₂ GenericRule.SameButId p.rules q.rules

inductive Policy.SameButIds : Policy → Policy → Prop where
  | odrl {p q : OdrlPolicy} (h : p.SameButIds q) : SameButIds (.odrl p) (.odrl q)
  | generic {p q : GenericPolicy} (h : p.SameButIds q) : SameButIds (.generic p) (.generic q)

section Lists

variable {α β : Type} {R : α → α → Prop} {as bs : List α}

theorem map_eq_of_forall₂ {f : α → β} (hf : ∀ a b, R a b → f a = f b) (h : List.Forall₂ R as bs) :
    as.map f = bs.map f := by
  induction h with
  | nil => rfl
  | cons hab _ ih => rw [List.map_cons, List.map_cons, hf _ _ hab, ih]

theorem flatMap_zipIdx_eq_of_forall₂ {check : α → Nat → List β}
    (hcheck : ∀ a b index, R a b → check a index = check b index) (h : List.Forall₂ R as bs) :
    (as.zipIdx.flatMap fun (a, index) => check a index) =
      bs.zipIdx.flatMap fun (b, index) => check b index := by
  have hfrom (first : Nat) : ((as.zipIdx first).flatMap fun (a, index) => check a index) =
      (bs.zipIdx first).flatMap fun (b, index) => check b index := by
    induction h generalizing first with
    | nil => rfl
    | cons hab _ ih => simp only [List.zipIdx_cons, List.flatMap_cons, hcheck _ _ _ hab, ih]
  exact hfrom 0

theorem RuleId.forall₂_of_number_eq {withId : α → RuleId → α} {id : α → RuleId}
    (hwithId : ∀ rule a b, withId (withId rule a) b = withId rule b)
    (hid : ∀ rule, withId rule (id rule) = rule) {first : Nat}
    (h : number withId first as = number withId first bs) :
    List.Forall₂ (fun a b => b = withId a (id b)) as bs := by
  induction as generalizing bs first with
  | nil =>
    cases bs with
    | nil => exact .nil
    | cons b bs => simp [number] at h
  | cons a as ih =>
    cases bs with
    | nil => simp [number] at h
    | cons b bs =>
      rw [number_cons, number_cons] at h
      obtain ⟨hhead, htail⟩ := List.cons.inj h
      have hab := congrArg (withId · (id b)) hhead
      simp only [hwithId, hid] at hab
      exact .cons hab.symm (ih htail)

end Lists

namespace OdrlRule.SameButId

variable {a b : OdrlRule} (h : a.SameButId b)

include h

theorem action_eq : a.action = b.action := by
  rw [h]

theorem constraints_eq : a.constraints = b.constraints := by
  rw [h]

theorem toDocument_eq : a.toDocument = b.toDocument := by
  rw [h]
  rfl

end OdrlRule.SameButId

namespace GenericRule.SameButId

variable {a b : GenericRule} (h : a.SameButId b)

include h

theorem toDocument_eq : a.toDocument = b.toDocument := by
  rw [h]
  rfl

theorem ruleViolations_eq (index : Nat) :
    GenericPolicy.ruleViolations a index = GenericPolicy.ruleViolations b index := by
  rw [h]
  rfl

end GenericRule.SameButId

namespace OdrlPolicy.SameButIds

variable {p q : OdrlPolicy} (h : p.SameButIds q)

include h

theorem fieldViolations_eq : p.fieldViolations = q.fieldViolations := by
  rw [h.rest]
  rfl

theorem ruleCount_eq : p.ruleCount = q.ruleCount := by
  have hpermission := (h.rules .permission).length_eq
  have hprohibition := (h.rules .prohibition).length_eq
  have hobligation := (h.rules .obligation).length_eq
  simp only [rulesIn] at hpermission hprohibition hobligation
  rw [ruleCount, hpermission, hprohibition, hobligation, ← ruleCount]

theorem violationsIn_eq {check : Partition → OdrlRule → Nat → List Violation}
    (hcheck : ∀ partition a b index, OdrlRule.SameButId a b →
      check partition a index = check partition b index) :
    p.violationsIn check = q.violationsIn check := by
  funext partition
  exact flatMap_zipIdx_eq_of_forall₂ (hcheck partition) (h.rules partition)

theorem violations_eq : p.violations = q.violations := by
  have hactions : p.violationsIn actionViolations = q.violationsIn actionViolations := by
    refine h.violationsIn_eq ?_
    intro partition a b index hab
    rw [actionViolations, hab.action_eq, ← actionViolations]
  have hconstraints : p.violationsIn constraintViolations = q.violationsIn constraintViolations := by
    refine h.violationsIn_eq ?_
    intro partition a b index hab
    rw [constraintViolations, hab.constraints_eq, ← constraintViolations]
  rw [violations, h.fieldViolations_eq, h.ruleCount_eq, hactions, hconstraints, ← violations]

theorem toDocument_eq (config : CanonicalConfig) : p.toDocument config = q.toDocument config := by
  have hrules (partition : Partition) :
      (p.rulesIn partition).map OdrlRule.toDocument =
        (q.rulesIn partition).map OdrlRule.toDocument :=
    map_eq_of_forall₂ (fun a b (hab : a.SameButId b) => hab.toDocument_eq) (h.rules partition)
  have hpermission := hrules .permission
  have hprohibition := hrules .prohibition
  have hobligation := hrules .obligation
  simp only [rulesIn] at hpermission hprohibition hobligation
  rw [toDocument, hpermission, hprohibition, hobligation, h.rest]
  rfl

end OdrlPolicy.SameButIds

namespace GenericPolicy.SameButIds

variable {p q : GenericPolicy} (h : p.SameButIds q)

include h

theorem fieldViolations_eq : p.fieldViolations = q.fieldViolations := by
  rw [h.rest]
  rfl

theorem violations_eq : p.violations = q.violations := by
  have hrules := flatMap_zipIdx_eq_of_forall₂
    (fun a b index (hab : GenericRule.SameButId a b) => hab.ruleViolations_eq index) h.rules
  rw [violations, h.fieldViolations_eq, hrules, ← violations]

theorem toDocument_eq : p.toDocument = q.toDocument := by
  have hrules := map_eq_of_forall₂
    (fun a b (hab : GenericRule.SameButId a b) => hab.toDocument_eq) h.rules
  rw [toDocument, hrules, h.rest]
  rfl

end GenericPolicy.SameButIds

namespace Policy.SameButIds

variable {p q : Policy} (h : p.SameButIds q)

include h

theorem family_eq : p.family = q.family := by
  cases h <;> rfl

theorem violations_eq : p.violations = q.violations := by
  cases h with
  | odrl h => exact h.violations_eq
  | generic h => exact h.violations_eq

theorem toDocument_eq (config : CanonicalConfig) : p.toDocument config = q.toDocument config := by
  cases h with
  | odrl h => exact congrArg PolicyDocument.odrl (h.toDocument_eq config)
  | generic h => exact congrArg PolicyDocument.generic h.toDocument_eq

theorem ownKey?_eq : p.ownKey? = q.ownKey? := by
  cases h with
  | odrl h =>
    rw [h.rest]
    rfl
  | generic h =>
    rw [h.rest]
    rfl

end Policy.SameButIds

theorem OdrlPolicy.sameButIds_of_renumbered_eq {p q : OdrlPolicy}
    (h : p.renumbered = q.renumbered) : p.SameButIds q := by
  obtain ⟨puid, pkind, pprofile, passigner, passignee, ptarget, ppermission, pprohibition,
    pobligation, pnext⟩ := p
  obtain ⟨quid, qkind, qprofile, qassigner, qassignee, qtarget, qpermission, qprohibition,
    qobligation, qnext⟩ := q
  simp only [renumbered, mk.injEq] at h
  obtain ⟨rfl, rfl, rfl, rfl, rfl, rfl, hpermission, hprohibition, hobligation, -⟩ := h
  have hrules {first : Nat} {as bs : List OdrlRule}
      (h : RuleId.number OdrlRule.withId first as = RuleId.number OdrlRule.withId first bs) :
      List.Forall₂ OdrlRule.SameButId as bs :=
    RuleId.forall₂_of_number_eq OdrlRule.withId_withId (fun _ => rfl) h
  have hfirst := (hrules hpermission).length_eq
  rw [hfirst] at hprohibition hobligation
  have hsecond := (hrules hprohibition).length_eq
  rw [hsecond] at hobligation
  refine ⟨rfl, ?_⟩
  intro partition
  cases partition with
  | permission => exact hrules hpermission
  | prohibition => exact hrules hprohibition
  | obligation => exact hrules hobligation

theorem GenericPolicy.sameButIds_of_renumbered_eq {p q : GenericPolicy}
    (h : p.renumbered = q.renumbered) : p.SameButIds q := by
  obtain ⟨⟩ := p
  obtain ⟨⟩ := q
  simp only [renumbered, mk.injEq] at h
  obtain ⟨rfl, rfl, rfl, rfl, rfl, rfl, rfl, rfl, rfl, rfl, hrules, rfl, rfl, -⟩ := h
  exact ⟨rfl, RuleId.forall₂_of_number_eq GenericRule.withId_withId (fun _ => rfl) hrules⟩

namespace Policy

variable {p q : Policy}

theorem sameButIds_of_renumbered_eq (h : p.renumbered = q.renumbered) : p.SameButIds q := by
  cases p with
  | odrl p =>
    cases q with
    | odrl q => exact .odrl (OdrlPolicy.sameButIds_of_renumbered_eq (Policy.odrl.inj h))
    | generic q => cases h
  | generic p =>
    cases q with
    | odrl q => cases h
    | generic q => exact .generic (GenericPolicy.sameButIds_of_renumbered_eq (Policy.generic.inj h))

theorem sameButIds_of_toDocument_eq {config : CanonicalConfig}
    (hprofile : config.defaultProfile = none)
    (h : p.toDocument config = q.toDocument config) : p.SameButIds q := by
  have hread := congrArg PolicyDocument.toPolicy h
  simp only [toPolicy_toDocument, orProfile_eq_self (.inr (.inr hprofile))] at hread
  exact sameButIds_of_renumbered_eq (Except.ok.inj hread)

end Policy

end RightsPolicy
