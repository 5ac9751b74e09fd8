import RightsPolicy.Proofs.Policy.LastRule

namespace RightsPolicy

def enterTerm {α : Type} [DecidableEq α] [Vocabulary α] (s : String) : Except PolicyError α :=
  (Vocabulary.read s).mapError .unknownTerm

def enterTerm? {α : Type} [DecidableEq α] [Vocabulary α] (s : String) :
    Except PolicyError (Option α) :=
  (Vocabulary.read? s).mapError .unknownTerm

namespace ConstraintDocument

def enter (id : RuleId) (policy : OdrlPolicy) (document : ConstraintDocument) :
    Except PolicyError OdrlPolicy := do
  let leftOperand ← enterTerm? document.leftOperand
  let operator ← enterTerm? document.operator
  let (policy, index) ← policy.addConstraint id
  let policy ← policy.updateConstraint id index (.leftOperand leftOperand)
  let policy ← policy.updateConstraint id index (.operator operator)
  policy.updateConstraint id index (.rightOperand document.rightOperand)

end ConstraintDocument

namespace RuleDocument

def enter (partition : Partition) (policy : OdrlPolicy) (document : RuleDocument) :
    Except PolicyError OdrlPolicy := do
  let action ← enterTerm? document.action
  let (policy, id) := policy.addRule partition
  let policy ← policy.updateRule id (.action action)
  let policy ← policy.updateRule id (.target document.target)
  document.constraints.foldlM (ConstraintDocument.enter id) policy

end RuleDocument

namespace OdrlDocument

def fields (document : OdrlDocument) : List OdrlField :=
  [.uid document.uid, .profile document.profile, .assigner (document.assigner.getD ""),
    .assignee (document.assignee.getD ""), .target document.target]

def enter (document : OdrlDocument) : Except PolicyError OdrlPolicy := do
  let kind ← enterTerm document.kind
  let policy := document.fields.foldl OdrlPolicy.set (OdrlPolicy.new kind)
  let policy ← document.permission.foldlM (RuleDocument.enter .permission) policy
  let policy ← document.prohibition.foldlM (RuleDocument.enter .prohibition) policy
  document.obligation.foldlM (RuleDocument.enter .obligation) policy

end OdrlDocument

namespace GenericRuleDocument

def enter (policy : GenericPolicy) (document : GenericRuleDocument) :
    Except PolicyError GenericPolicy := do
  let ruleType ← enterTerm? document.ruleType
  let operator ← enterTerm? document.operator
  let (policy, id) := policy.addRule
  let policy ← policy.updateRule id (.ruleType ruleType)
  let policy ← policy.updateRule id (.operator operator)
  let policy ← policy.updateRule id (.value document.value)
  policy.updateRule id (.description document.description)

end GenericRuleDocument

namespace GenericDocument

def fields (document : GenericDocument) (status : Option Status)
    (enforcement : Option Enforcement) : List GenericField :=
  [.id document.id, .name document.name, .description document.description,
    .status (status.getD default), .priority document.priority,
    .targetResources (TextSet.ofList document.targetResources),
    .targetUsers (TextSet.ofList document.targetUsers), .validFrom document.validFrom,
    .validTo document.validTo, .notifications document.notifications,
    .enforcement (enforcement.getD default)]

def enter (document : GenericDocument) : Except PolicyError GenericPolicy := do
  let kind ← enterTerm document.kind
  let status ← enterTerm? document.status
  let enforcement ← enterTerm? document.enforcement
  let fields := document.fields status enforcement
  let policy := fields.foldl GenericPolicy.set (GenericPolicy.new kind)
  document.rules.foldlM GenericRuleDocument.enter policy

end GenericDocument

namespace PolicyDocument

def enter : PolicyDocument → Except PolicyError Policy
  | .odrl document => document.enter.map Policy.odrl
  | .generic document => document.enter.map Policy.generic

end PolicyDocument

namespace OdrlPolicy

variable {policy : OdrlPolicy} {n : Nat}

section Last

variable (hroom : policy.ruleIds.HasRoom n) (partition : Partition) (rule : OdrlRule)

include hroom

theorem enter_constraint (document : ConstraintDocument) :
    document.enter policy.nextRuleId (policy.push partition rule) =
      (document.toConstraint.mapError .unknownTerm).map fun constraint =>
        policy.push partition { rule with constraints := rule.constraints ++ [constraint] } := by
  simp only [ConstraintDocument.enter, ConstraintDocument.toConstraint, enterTerm?]
  cases (Vocabulary.read? document.leftOperand : Except UnknownTerm (Option LeftOperand)) with
  | error unknown => rfl
  | ok leftOperand =>
    cases (Vocabulary.read? document.operator : Except UnknownTerm (Option ConstraintOperator)) with
    | error unknown => rfl
    | ok operator =>
      simp only [mapError_ok, bind, Except.bind, addConstraint_push hroom,
        updateConstraint_push hroom]
      rfl

theorem enter_constraints (documents : List ConstraintDocument) :
    documents.foldlM (ConstraintDocument.enter policy.nextRuleId) (policy.push partition rule) =
      ((documents.mapM ConstraintDocument.toConstraint).mapError .unknownTerm).map
        fun constraints => policy.push partition
          { rule with constraints := rule.constraints ++ constraints } := by
  induction documents generalizing rule with
  | nil =>
    simp [Except.map, pure, Except.pure]
  | cons document documents ih =>
    rw [List.foldlM_cons, List.mapM_cons, enter_constraint hroom]
    cases document.toConstraint with
    | error unknown => rfl
    | ok constraint =>
      simp only [mapError_ok, Except.map, bind, Except.bind, ih]
      cases documents.mapM ConstraintDocument.toConstraint with
      | error unknown => rfl
      | ok constraints => simp [pure, Except.pure]

theorem enter_rule (document : RuleDocument) :
    document.enter partition policy =
      (document.toRule.mapError .unknownTerm).map (policy.push partition) := by
  simp only [RuleDocument.enter, RuleDocument.toRule, enterTerm?]
  cases (Vocabulary.read? document.action : Except UnknownTerm (Option Action)) with
  | error unknown => rfl
  | ok action =>
    simp only [mapError_ok, bind, Except.bind, addRule, updateRule_push hroom,
      enter_constraints hroom]
    cases document.constraints.mapM ConstraintDocument.toConstraint with
    | error unknown => rfl
    | ok constraints => rfl

end Last

theorem enter_rules (partition : Partition) {documents : List RuleDocument}
    (hroom : policy.ruleIds.HasRoom (documents.length + n)) :
    documents.foldlM (RuleDocument.enter partition) policy =
      ((documents.mapM RuleDocument.toRule).mapError .unknownTerm).map
        fun rules => rules.foldl (·.push partition ·) policy := by
  refine foldlM_eq_map_mapM (fun (policy : OdrlPolicy) n => policy.ruleIds.HasRoom n) ?_ ?_ hroom
  · intro policy rule n
    exact hasRoom_push partition rule
  · intro policy document n hroom
    exact enter_rule hroom partition document

theorem hasRoom_rules (partition : Partition) {documents : List RuleDocument}
    {rules : List OdrlRule} (hread : documents.mapM RuleDocument.toRule = .ok rules)
    (hroom : policy.ruleIds.HasRoom (documents.length + n)) :
    (rules.foldl (·.push partition ·) policy).ruleIds.HasRoom n := by
  refine room_of_mapM (fun (policy : OdrlPolicy) n => policy.ruleIds.HasRoom n) ?_ hread hroom
  intro policy rule n
  exact hasRoom_push partition rule

end OdrlPolicy

namespace OdrlDocument

def ruleCount (document : OdrlDocument) : Nat :=
  document.permission.length + document.prohibition.length + document.obligation.length

theorem enter_eq {document : OdrlDocument} (hfits : document.ruleCount < RuleId.last) :
    document.enter = document.toPolicy.mapError .unknownTerm := by
  simp only [enter, toPolicy, enterTerm]
  cases (Vocabulary.read document.kind : Except UnknownTerm OdrlKind) with
  | error unknown => rfl
  | ok kind =>
    have hroom : (document.fields.foldl OdrlPolicy.set (OdrlPolicy.new kind)).ruleIds.HasRoom
        document.ruleCount := OdrlPolicy.hasRoom_new kind hfits
    rw [ruleCount, Nat.add_assoc] at hroom
    simp only [mapError_ok, bind, Except.bind]
    rw [OdrlPolicy.enter_rules .permission hroom]
    cases hpermission : document.permission.mapM RuleDocument.toRule with
    | error unknown => rfl
    | ok permission =>
      replace hroom := OdrlPolicy.hasRoom_rules .permission hpermission hroom
      simp only [mapError_ok, Except.map]
      rw [OdrlPolicy.enter_rules .prohibition hroom]
      cases hprohibition : document.prohibition.mapM RuleDocument.toRule with
      | error unknown => rfl
      | ok prohibition =>
        replace hroom := OdrlPolicy.hasRoom_rules .prohibition hprohibition hroom
        simp only [mapError_ok, Except.map]
        rw [@OdrlPolicy.enter_rules _ 0 .obligation _ hroom]
        cases document.obligation.mapM RuleDocument.toRule <;> rfl

end OdrlDocument

namespace GenericPolicy

variable {policy : GenericPolicy} {n : Nat}

theorem enter_rule (hroom : policy.ruleIds.HasRoom n) (document : GenericRuleDocument) :
    document.enter policy = (document.toRule.mapError .unknownTerm).map policy.push := by
  simp only [GenericRuleDocument.enter, GenericRuleDocument.toRule, enterTerm?]
  cases (Vocabulary.read? document.ruleType : Except UnknownTerm (Option RuleType)) with
  | error unknown => rfl
  | ok ruleType =>
    cases (Vocabulary.read? document.operator : Except UnknownTerm (Option ComparisonOperator)) with
    | error unknown => rfl
    | ok operator =>
      simp only [mapError_ok, bind, Except.bind, addRule, updateRule_push hroom]
      rfl

theorem enter_rules {documents : List GenericRuleDocument}
    (hroom : policy.ruleIds.HasRoom (documents.length + n)) :
    documents.foldlM GenericRuleDocument.enter policy =
      ((documents.mapM GenericRuleDocument.toRule).mapError .unknownTerm).map
        fun rules => rules.foldl push policy := by
  refine foldlM_eq_map_mapM (fun (policy : GenericPolicy) n => policy.ruleIds.HasRoom n) ?_ ?_ hroom
  · intro policy rule n
    exact hasRoom_push rule
  · intro policy document n hroom
    exact enter_rule hroom document

end GenericPolicy

theorem GenericDocument.enter_eq {document : GenericDocument}
    (hfits : document.rules.length < RuleId.last) :
    document.enter = document.toPolicy.mapError .unknownTerm := by
  simp only [enter, toPolicy, enterTerm, enterTerm?]
  cases (Vocabulary.read document.kind : Except UnknownTerm GenericKind) with
  | error unknown => rfl
  | ok kind =>
    cases (Vocabulary.read? document.status : Except UnknownTerm (Option Status)) with
    | error unknown => rfl
    | ok status =>
      cases (Vocabulary.read? document.enforcement : Except UnknownTerm (Option Enforcement)) with
      | error unknown => rfl
      | ok enforcement =>
        have hroom : ((document.fields status enforcement).foldl GenericPolicy.set
            (GenericPolicy.new kind)).ruleIds.HasRoom (document.rules.length + 0) :=
          GenericPolicy.hasRoom_new kind hfits
        simp only [mapError_ok, bind, Except.bind]
        rw [GenericPolicy.enter_rules hroom]
        cases document.rules.mapM GenericRuleDocument.toRule <;> rfl

inductive Editor.Authored {σ ε ι : Type} [DecidableEq ι] (editor : Editor σ ε ι) (start : σ) :
    σ → Prop where
  | start : Authored editor start start
  | edit {policy after : σ} (e : ε) (answer : EditAnswer) (h : Authored editor start policy)
      (hedit : editor.edit policy e = (answer, after)) (hanswer : ∀ cause, answer ≠ .refused cause) :
      Authored editor start after

namespace OdrlPolicy

variable {start policy after : OdrlPolicy} {id : RuleId} {index : Nat}

theorem authored_fields (h : editor.Authored start policy) (fields : List OdrlField) :
    editor.Authored start (fields.foldl set policy) := by
  induction fields generalizing policy with
  | nil => exact h
  | cons field fields ih =>
    exact ih (.edit (.set field) .changed h rfl nofun)

theorem authored_updateRule (h : editor.Authored start policy) {field : OdrlRuleField}
    (hupdate : policy.updateRule id field = .ok after) : editor.Authored start after := by
  refine .edit (.updateRule id field) .changed h ?_ nofun
  simp only [editor, edit, hupdate]
  rfl

theorem authored_addConstraint (h : editor.Authored start policy)
    (hadd : policy.addConstraint id = .ok (after, index)) : editor.Authored start after := by
  refine .edit (.addConstraint id) (.newConstraint index) h ?_ nofun
  simp only [editor, edit, hadd]
  rfl

theorem authored_updateConstraint (h : editor.Authored start policy) {field : ConstraintField}
    (hupdate : policy.updateConstraint id index field = .ok after) :
    editor.Authored start after := by
  refine .edit (.updateConstraint id index field) .changed h ?_ nofun
  simp only [editor, edit, hupdate]
  rfl

theorem authored_constraint {document : ConstraintDocument} (h : editor.Authored start policy)
    (henter : document.enter id policy = .ok after) : editor.Authored start after := by
  obtain ⟨leftOperand, -, henter⟩ := bind_eq_ok_iff.mp henter
  obtain ⟨operator, -, henter⟩ := bind_eq_ok_iff.mp henter
  obtain ⟨⟨added, index⟩, hadd, henter⟩ := bind_eq_ok_iff.mp henter
  obtain ⟨first, hfirst, henter⟩ := bind_eq_ok_iff.mp henter
  obtain ⟨second, hsecond, hthird⟩ := bind_eq_ok_iff.mp henter
  have hadded := authored_addConstraint h hadd
  have hsecond := authored_updateConstraint (authored_updateConstraint hadded hfirst) hsecond
  exact authored_updateConstraint hsecond hthird

theorem authored_rule {partition : Partition} {document : RuleDocument}
    (h : editor.Authored start policy) (henter : document.enter partition policy = .ok after) :
    editor.Authored start after := by
  obtain ⟨action, -, henter⟩ := bind_eq_ok_iff.mp henter
  obtain ⟨first, hfirst, henter⟩ := bind_eq_ok_iff.mp henter
  obtain ⟨second, hsecond, henter⟩ := bind_eq_ok_iff.mp henter
  have hadded : editor.Authored start (policy.addRule partition).1 :=
    .edit (.addRule partition) _ h rfl nofun
  have hset := authored_updateRule (authored_updateRule hadded hfirst) hsecond
  exact of_foldlM (fun _ _ _ => authored_constraint) hset henter

theorem authored_document {document : OdrlDocument} (henter : document.enter = .ok policy) :
    ∃ kind, editor.Authored (new kind) policy := by
  obtain ⟨kind, -, henter⟩ := bind_eq_ok_iff.mp henter
  obtain ⟨first, hfirst, henter⟩ := bind_eq_ok_iff.mp henter
  obtain ⟨second, hsecond, hthird⟩ := bind_eq_ok_iff.mp henter
  have hfields := authored_fields (@Editor.Authored.start _ _ _ _ editor (new kind)) document.fields
  have hpermission := of_foldlM (fun _ _ _ => authored_rule) hfields hfirst
  have hprohibition := of_foldlM (fun _ _ _ => authored_rule) hpermission hsecond
  exact ⟨kind, of_foldlM (fun _ _ _ => authored_rule) hprohibition hthird⟩

end OdrlPolicy

namespace GenericPolicy

variable {start policy after : GenericPolicy} {id : RuleId}

theorem authored_fields (h : editor.Authored start policy) (fields : List GenericField) :
    editor.Authored start (fields.foldl set policy) := by
  induction fields generalizing policy with
  | nil => exact h
  | cons field fields ih => exact ih (.edit (.set field) .changed h rfl nofun)

theorem authored_updateRule (h : editor.Authored start policy) {field : GenericRuleField}
    (hupdate : policy.updateRule id field = .ok after) : editor.Authored start after := by
  refine .edit (.updateRule id field) .changed h ?_ nofun
  simp only [editor, edit, hupdate]
  rfl

theorem authored_rule {document : GenericRuleDocument} (h : editor.Authored start policy)
    (henter : document.enter policy = .ok after) : editor.Authored start after := by
  obtain ⟨ruleType, -, henter⟩ := bind_eq_ok_iff.mp henter
  obtain ⟨operator, -, henter⟩ := bind_eq_ok_iff.mp henter
  obtain ⟨first, hfirst, henter⟩ := bind_eq_ok_iff.mp henter
  obtain ⟨second, hsecond, henter⟩ := bind_eq_ok_iff.mp henter
  obtain ⟨third, hthird, hfourth⟩ := bind_eq_ok_iff.mp henter
  have hadded : editor.Authored start policy.addRule.1 := .edit .addRule _ h rfl nofun
  have hsecond := authored_updateRule (authored_updateRule hadded hfirst) hsecond
  exact authored_updateRule (authored_updateRule hsecond hthird) hfourth

theorem authored_document {document : GenericDocument} (henter : document.enter = .ok policy) :
    ∃ kind, editor.Authored (new kind) policy := by
  obtain ⟨kind, -, henter⟩ := bind_eq_ok_iff.mp henter
  obtain ⟨status, -, henter⟩ := bind_eq_ok_iff.mp henter
  obtain ⟨enforcement, -, henter⟩ := bind_eq_ok_iff.mp henter
  have hfields := authored_fields (@Editor.Authored.start _ _ _ _ editor (new kind))
    (document.fields status enforcement)
  exact ⟨kind, of_foldlM (fun _ _ _ => authored_rule) hfields henter⟩

end GenericPolicy

def Policy.Authored : Policy → Prop
  | .odrl policy => ∃ kind, OdrlPolicy.editor.Authored (.new kind) policy
  | .generic policy => ∃ kind, GenericPolicy.editor.Authored (.new kind) policy

namespace PolicyDocument

def ruleCount : PolicyDocument → Nat
  | .odrl document => document.ruleCount
  | .generic document => document.rules.length

theorem enter_eq {document : PolicyDocument} (hfits : document.ruleCount < RuleId.last) :
    document.enter = document.toPolicy.mapError .unknownTerm := by
  cases document with
  | odrl document =>
    simp only [enter, toPolicy, OdrlDocument.enter_eq hfits]
    cases document.toPolicy <;> rfl
  | generic document =>
    simp only [enter, toPolicy, GenericDocument.enter_eq hfits]
    cases document.toPolicy <;> rfl

theorem authored_of_enter {document : PolicyDocument} {policy : Policy}
    (h : document.enter = .ok policy) : policy.Authored := by
  cases document with
  | odrl document =>
    obtain ⟨policy, henter, rfl⟩ := map_eq_ok_iff.mp h
    exact OdrlPolicy.authored_document henter
  | generic document =>
    obtain ⟨policy, henter, rfl⟩ := map_eq_ok_iff.mp h
    exact GenericPolicy.authored_document henter

theorem authoring_of_import {document : PolicyDocument} (hfits : document.ruleCount < RuleId.last) :
    document.enter = document.toPolicy.mapError .unknownTerm ∧
      ∀ policy, document.toPolicy = .ok policy →
        document.enter = .ok policy ∧ policy.Authored := by
  have henter := enter_eq hfits
  refine ⟨henter, ?_⟩
  intro policy himport
  rw [himport] at henter
  exact ⟨henter, authored_of_enter henter⟩

def sparseOffer : OdrlDocument where
  context := "urn:context"
  kind := "Offer"
  uid := "urn:offer"
  profile := none
  assigner := some "urn:me"
  assignee := none
  target := "urn:asset"
  permission := [⟨"read", none, [⟨"dateTime", "", "1"⟩, ⟨"", "eq", ""⟩]⟩, ⟨"", some "", []⟩]
  prohibition := []
  obligation := [⟨"", some "urn:part", []⟩]

theorem authoring_of_sparseOffer : ∃ policy,
    (PolicyDocument.odrl sparseOffer).ruleCount < RuleId.last ∧
      (PolicyDocument.odrl sparseOffer).toPolicy = .ok policy ∧
      (PolicyDocument.odrl sparseOffer).enter = .ok policy ∧ policy.Authored := by
  have hfits : (PolicyDocument.odrl sparseOffer).ruleCount < RuleId.last := by decide
  obtain ⟨policy, himport⟩ : ∃ policy, (PolicyDocument.odrl sparseOffer).toPolicy = .ok policy :=
    ⟨_, rfl⟩
  obtain ⟨-, hentered⟩ := authoring_of_import hfits
  exact ⟨policy, hfits, himport, hentered policy himport⟩

end PolicyDocument

end RightsPolicy
