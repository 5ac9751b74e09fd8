import RightsPolicy.Document.Export
import RightsPolicy.Document.Import
import RightsPolicy.Proofs.Outcome
import RightsPolicy.Proofs.Policy.Numbering

namespace RightsPolicy

def OdrlDocument.assemble (document : OdrlDocument) (kind : OdrlKind)
    (permission prohibition obligation : List OdrlRule) : OdrlPolicy :=
  OdrlPolicy.renumbered
    { uid := document.uid
      kind := kind
      profile := document.profile
      assigner := document.assigner.getD ""
      assignee := document.assignee.getD ""
      target := document.target
      permission := permission
      prohibition := prohibition
      obligation := obligation
      nextRuleId := ⟨1⟩ }

theorem OdrlDocument.toPolicy_eq_ok_iff {document : OdrlDocument} {policy : OdrlPolicy} :
    document.toPolicy = .ok policy ↔
      ∃ kind, Vocabulary.read document.kind = .ok kind ∧
      ∃ permission, document.permission.mapM RuleDocument.toRule = .ok permission ∧
      ∃ prohibition, document.prohibition.mapM RuleDocument.toRule = .ok prohibition ∧
      ∃ obligation, document.obligation.mapM RuleDocument.toRule = .ok obligation ∧
        document.assemble kind permission prohibition obligation = policy := by
  have hpush (kind : OdrlKind) (permission prohibition obligation : List OdrlRule) :=
    OdrlPolicy.push_all
      { OdrlPolicy.new kind with
        uid := document.uid
        profile := document.profile
        assigner := document.assigner.getD ""
        assignee := document.assignee.getD ""
        target := document.target }
      rfl (fun partition => by cases partition <;> rfl) permission prohibition obligation
  simp only [toPolicy, hpush, bind_eq_ok_iff, Except.ok.injEq]
  rfl

def GenericDocument.assemble (document : GenericDocument) (kind : GenericKind)
    (status : Option Status) (enforcement : Option Enforcement) (rules : List GenericRule) :
    GenericPolicy :=
  GenericPolicy.renumbered
    { id := document.id
      name := document.name
      description := document.description
      kind := kind
      status := status.getD default
      priority := document.priority
      targetResources := TextSet.ofList document.targetResources
      targetUsers := TextSet.ofList document.targetUsers
      validFrom := document.validFrom
      validTo := document.validTo
      rules := rules
      notifications := document.notifications
      enforcement := enforcement.getD default
      nextRuleId := ⟨1⟩ }

theorem GenericDocument.toPolicy_eq_ok_iff {document : GenericDocument}
    {policy : GenericPolicy} :
    document.toPolicy = .ok policy ↔
      ∃ kind, Vocabulary.read document.kind = .ok kind ∧
      ∃ status, Vocabulary.read? document.status = .ok status ∧
      ∃ enforcement, Vocabulary.read? document.enforcement = .ok enforcement ∧
      ∃ rules, document.rules.mapM GenericRuleDocument.toRule = .ok rules ∧
        document.assemble kind status enforcement rules = policy := by
  have hpush (kind : GenericKind) (status : Option Status) (enforcement : Option Enforcement)
      (rules : List GenericRule) :=
    GenericPolicy.push_all
      { GenericPolicy.new kind with
        id := document.id
        name := document.name
        description := document.description
        status := status.getD default
        priority := document.priority
        targetResources := TextSet.ofList document.targetResources
        targetUsers := TextSet.ofList document.targetUsers
        validFrom := document.validFrom
        validTo := document.validTo
        notifications := document.notifications
        enforcement := enforcement.getD default }
      rfl rfl rules
  simp only [toPolicy, hpush, bind_eq_ok_iff, Except.ok.injEq]
  rfl

theorem PolicyDocument.renumbered_of_toPolicy {document : PolicyDocument} {policy : Policy}
    (h : document.toPolicy = .ok policy) : policy.renumbered = policy := by
  cases document with
  | odrl document =>
    obtain ⟨policy, himport, rfl⟩ := map_eq_ok_iff.mp h
    obtain ⟨_, _, _, _, _, _, _, _, rfl⟩ := OdrlDocument.toPolicy_eq_ok_iff.mp himport
    exact congrArg Policy.odrl (OdrlPolicy.renumbered_renumbered _)
  | generic document =>
    obtain ⟨policy, himport, rfl⟩ := map_eq_ok_iff.mp h
    obtain ⟨_, _, _, _, _, _, _, _, rfl⟩ := GenericDocument.toPolicy_eq_ok_iff.mp himport
    exact congrArg Policy.generic (GenericPolicy.renumbered_renumbered _)

theorem Constraint.toConstraint_toDocument (constraint : Constraint) :
    constraint.toDocument.toConstraint = .ok constraint := by
  simp only [toDocument, ConstraintDocument.toConstraint, Vocabulary.read?_termOrEmpty]
  rfl

theorem OdrlRule.toRule_toDocument (rule : OdrlRule) :
    rule.toDocument.toRule = .ok (rule.withId ⟨0⟩) := by
  have hconstraints := mapM_map_ok Constraint.toConstraint_toDocument rule.constraints
  rw [List.map_id'] at hconstraints
  simp only [toDocument, RuleDocument.toRule, Vocabulary.read?_termOrEmpty, hconstraints]
  rfl

theorem GenericRule.toRule_toDocument (rule : GenericRule) :
    rule.toDocument.toRule = .ok (rule.withId ⟨0⟩) := by
  simp only [toDocument, GenericRuleDocument.toRule, Vocabulary.read?_termOrEmpty]
  rfl

theorem OdrlPolicy.getD_party (name : String) (required : Bool) :
    (party name required).getD "" = name := by
  by_cases h : name = ""
  · cases required <;> simp [party, h]
  · simp [party, h]

theorem OdrlPolicy.toPolicy_toDocument (policy : OdrlPolicy) (config : CanonicalConfig) :
    (policy.toDocument config).toPolicy =
      .ok { policy.renumbered with profile := policy.profile <|> config.defaultProfile } := by
  have hrules := mapM_map_ok OdrlRule.toRule_toDocument
  have hnumber (first : Nat) (rules : List OdrlRule) :=
    RuleId.number_map OdrlRule.withId_withId (fun _ => ⟨0⟩) first rules
  refine OdrlDocument.toPolicy_eq_ok_iff.mpr ⟨_, Vocabulary.read_term _, _, hrules _, _, hrules _,
    _, hrules _, ?_⟩
  simp only [OdrlDocument.assemble, toDocument, getD_party, renumbered, hnumber, List.length_map]

theorem GenericPolicy.toPolicy_toDocument (policy : GenericPolicy) :
    policy.toDocument.toPolicy = .ok policy.renumbered := by
  have hrules := mapM_map_ok GenericRule.toRule_toDocument
  have hnumber (rules : List GenericRule) :=
    RuleId.number_map GenericRule.withId_withId (fun _ => ⟨0⟩) 1 rules
  have hstatus := Vocabulary.read?_termOrEmpty (some policy.status)
  have henforcement := Vocabulary.read?_termOrEmpty (some policy.enforcement)
  refine GenericDocument.toPolicy_eq_ok_iff.mpr ⟨_, Vocabulary.read_term _, _, hstatus, _,
    henforcement, _, hrules _, ?_⟩
  simp only [GenericDocument.assemble, toDocument, renumbered, hnumber, List.length_map,
    TextSet.ofList_toList, Option.getD_some]

namespace Policy

def profile? : Policy → Option String
  | .odrl policy => policy.profile
  | .generic _ => none

def orProfile (policy : Policy) (profile : Option String) : Policy :=
  match policy with
  | .odrl policy => .odrl { policy with profile := policy.profile <|> profile }
  | .generic policy => .generic policy

theorem orProfile_eq_self {policy : Policy} {profile : Option String}
    (h : policy.profile? ≠ none ∨ policy.family = .generic ∨ profile = none) :
    policy.orProfile profile = policy := by
  cases policy with
  | generic policy => rfl
  | odrl policy =>
    have hprofile : (policy.profile <|> profile) = policy.profile := by
      rcases h with h | h | rfl
      · obtain ⟨name, hname⟩ := Option.ne_none_iff_exists'.mp h
        simp only [profile?] at hname
        simp [hname]
      · cases h
      · simp
    rw [orProfile, hprofile]

theorem toPolicy_toDocument (policy : Policy) (config : CanonicalConfig) :
    (policy.toDocument config).toPolicy =
      .ok (policy.renumbered.orProfile config.defaultProfile) := by
  cases policy with
  | odrl policy =>
    simp only [toDocument, PolicyDocument.toPolicy, OdrlPolicy.toPolicy_toDocument]
    rfl
  | generic policy =>
    simp only [toDocument, PolicyDocument.toPolicy, GenericPolicy.toPolicy_toDocument]
    rfl

theorem import_undoes_export (policy : Policy) (config : CanonicalConfig) :
    (policy.toDocument config).toPolicy =
        .ok (policy.renumbered.orProfile config.defaultProfile) ∧
      ∀ document : PolicyDocument, document.toPolicy = .ok policy →
        policy.profile? ≠ none ∨ policy.family = .generic ∨ config.defaultProfile = none →
        (policy.toDocument config).toPolicy = .ok policy := by
  refine ⟨toPolicy_toDocument policy config, ?_⟩
  intro document himport hprofile
  have hnumbered := PolicyDocument.renumbered_of_toPolicy himport
  rw [toPolicy_toDocument, hnumbered, orProfile_eq_self hprofile]

theorem import_undoes_export_of_profiled :
    let document : PolicyDocument := .odrl
      { context := "urn:context"
        kind := "Offer"
        uid := ""
        profile := some "urn:own"
        assigner := none
        assignee := some ""
        target := "urn:asset"
        permission := [⟨"read", none, [⟨"dateTime", "", "1"⟩]⟩]
        prohibition := []
        obligation := [⟨"", some "urn:part", []⟩] }
    ∃ policy, document.toPolicy = .ok policy ∧ policy.profile? = some "urn:own" ∧
      (policy.toDocument ⟨"urn:odrl", some "urn:profile", true⟩).toPolicy = .ok policy := by
  intro document
  obtain ⟨policy, himport, hprofile⟩ : ∃ policy, document.toPolicy = .ok policy ∧
      policy.profile? = some "urn:own" := ⟨_, rfl, rfl⟩
  refine ⟨policy, himport, hprofile, ?_⟩
  exact (import_undoes_export policy _).2 document himport (.inl (by simp [hprofile]))

end Policy

end RightsPolicy
