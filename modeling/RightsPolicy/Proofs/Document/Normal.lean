import Mathlib.Data.List.Dedup
import Mathlib.Data.List.Sort
import RightsPolicy.Proofs.Document.ReadBack

namespace RightsPolicy

namespace TextSet

theorem mem_ofList {items : List String} {s : String} : s ∈ (ofList items).toList ↔ s ∈ items := by
  have hfold (set : TextSet) :
      s ∈ (items.foldl insert set).toList ↔ s ∈ items ∨ s ∈ set.toList := by
    induction items generalizing set with
    | nil => simp
    | cons t rest ih => simp [ih, mem_insert, or_left_comm, or_assoc]
  rw [ofList, hfold]
  simp [empty]

theorem ofList_eq_iff {items others : List String} :
    ofList items = ofList others ↔ ∀ s, s ∈ items ↔ s ∈ others := by
  constructor
  · intro h s
    rw [← mem_ofList, h, mem_ofList]
  · intro h
    refine ext ((ofList items).ascending.eq_of_mem_iff (ofList others).ascending ?_)
    intro s
    rw [mem_ofList, h, mem_ofList]

end TextSet

def sortedTexts (items : List String) : List String :=
  items.dedup.mergeSort

theorem mem_sortedTexts {items : List String} {s : String} : s ∈ sortedTexts items ↔ s ∈ items := by
  rw [sortedTexts, List.mem_mergeSort, List.mem_dedup]

theorem ascending_sortedTexts (items : List String) : (sortedTexts items).Pairwise (· < ·) := by
  have hsorted : (sortedTexts items).Pairwise fun a b => decide (a ≤ b) = true := by
    refine List.pairwise_mergeSort ?_ ?_ items.dedup
    · simpa using fun a b c : String => String.le_trans
    · simpa using String.le_total
  have hnodup : (sortedTexts items).Nodup :=
    (List.mergeSort_perm _ _).nodup_iff.mpr (List.nodup_dedup items)
  refine (hsorted.and hnodup).imp ?_
  rintro a b ⟨hle, hne⟩
  exact TextSet.lt_of_not_lt_of_ne (String.not_lt.mpr (of_decide_eq_true hle)) (Ne.symm hne)

theorem sortedTexts_eq_iff {items sorted : List String} : sortedTexts items = sorted ↔
    sorted.Pairwise (· < ·) ∧ ∀ s, s ∈ sorted ↔ s ∈ items := by
  constructor
  · rintro rfl
    exact ⟨ascending_sortedTexts items, fun s => mem_sortedTexts⟩
  · rintro ⟨hascending, hmem⟩
    refine (ascending_sortedTexts items).eq_of_mem_iff hascending ?_
    intro s
    rw [mem_sortedTexts, hmem]

theorem TextSet.toList_ofList (items : List String) : (ofList items).toList = sortedTexts items :=
  (sortedTexts_eq_iff.mpr ⟨(ofList items).ascending, fun _ => mem_ofList⟩).symm

namespace Vocabulary

variable {α : Type} [DecidableEq α] [Vocabulary α]

theorem term_of_read {s : String} {a : α} (h : read s = .ok a) : term a = s := by
  unfold read at h
  split at h
  · rename_i found hfound
    cases h
    exact (ofTerm?_eq_some_iff.mp hfound).symm
  · cases h

theorem termOrEmpty_of_read? {s : String} {value : Option α} (h : read? s = .ok value) :
    termOrEmpty value = s := by
  unfold read? at h
  split at h
  · rename_i hempty
    cases h
    exact hempty.symm
  · obtain ⟨a, ha, rfl⟩ := map_eq_ok_iff.mp h
    exact term_of_read ha

theorem term_getD_of_read? {s : String} {value : Option α} (h : read? s = .ok value) (d : α) :
    term (value.getD d) = if s = "" then term d else s := by
  cases value with
  | none =>
    have hempty : "" = s := termOrEmpty_of_read? h
    rw [if_pos hempty.symm]
    rfl
  | some a =>
    have hterm : term a = s := termOrEmpty_of_read? h
    rw [if_neg (hterm ▸ term_ne_empty a)]
    exact hterm

end Vocabulary

theorem ConstraintDocument.toDocument_of_toConstraint {document : ConstraintDocument}
    {constraint : Constraint} (h : document.toConstraint = .ok constraint) :
    constraint.toDocument = document := by
  obtain ⟨leftOperand, hleft, h⟩ := bind_eq_ok_iff.mp h
  obtain ⟨operator, hoperator, h⟩ := bind_eq_ok_iff.mp h
  cases h
  rw [Constraint.toDocument, Vocabulary.termOrEmpty_of_read? hleft,
    Vocabulary.termOrEmpty_of_read? hoperator]

theorem RuleDocument.toDocument_of_toRule {document : RuleDocument} {rule : OdrlRule}
    (h : document.toRule = .ok rule) : rule.toDocument = document := by
  obtain ⟨action, haction, h⟩ := bind_eq_ok_iff.mp h
  obtain ⟨constraints, hconstraints, h⟩ := bind_eq_ok_iff.mp h
  cases h
  have hmap := map_of_mapM_eq_ok
    (fun _ _ => ConstraintDocument.toDocument_of_toConstraint) hconstraints
  rw [OdrlRule.toDocument, Vocabulary.termOrEmpty_of_read? haction, hmap]

theorem GenericRuleDocument.toDocument_of_toRule {document : GenericRuleDocument}
    {rule : GenericRule} (h : document.toRule = .ok rule) : rule.toDocument = document := by
  obtain ⟨ruleType, htype, h⟩ := bind_eq_ok_iff.mp h
  obtain ⟨operator, hoperator, h⟩ := bind_eq_ok_iff.mp h
  cases h
  rw [GenericRule.toDocument, Vocabulary.termOrEmpty_of_read? htype,
    Vocabulary.termOrEmpty_of_read? hoperator]

theorem map_number {α β : Type} {withId : α → RuleId → α} {f : α → β}
    (hf : ∀ a id, f (withId a id) = f a) (first : Nat) (rules : List α) :
    (RuleId.number withId first rules).map f = rules.map f := by
  induction rules generalizing first with
  | nil => rfl
  | cons rule rules ih => rw [RuleId.number_cons, List.map_cons, List.map_cons, hf, ih]

namespace OdrlDocument

def requiresAssigner (document : OdrlDocument) : Bool :=
  document.kind = "Agreement" || document.kind = "Offer"

def requiresAssignee (document : OdrlDocument) : Bool :=
  document.kind = "Agreement"

def normalParty (required : Bool) (party : Option String) : Option String :=
  if required then some (party.getD "") else if party = some "" then none else party

def normalized (document : OdrlDocument) (config : CanonicalConfig) : OdrlDocument :=
  { document with
    context := config.odrlContext
    profile := document.profile <|> config.defaultProfile
    assigner := normalParty document.requiresAssigner document.assigner
    assignee := normalParty document.requiresAssignee document.assignee }

structure IsNormal (document : OdrlDocument) (config : CanonicalConfig) : Prop where
  context : document.context = config.odrlContext
  profile : document.profile = none → config.defaultProfile = none
  assigner : if document.requiresAssigner then document.assigner ≠ none
    else document.assigner ≠ some ""
  assignee : if document.requiresAssignee then document.assignee ≠ none
    else document.assignee ≠ some ""

theorem normalParty_eq_self_iff {required : Bool} {party : Option String} :
    normalParty required party = party ↔
      if required then party ≠ none else party ≠ some "" := by
  cases required with
  | false =>
    by_cases h : party = some "" <;> simp [normalParty, h]
  | true => cases party <;> simp [normalParty]

theorem normalParty_normalParty (required : Bool) (party : Option String) :
    normalParty required (normalParty required party) = normalParty required party := by
  refine normalParty_eq_self_iff.mpr ?_
  cases required with
  | false =>
    by_cases h : party = some "" <;> simp [normalParty, h]
  | true => simp [normalParty]

theorem normalized_eq_self_iff {document : OdrlDocument} {config : CanonicalConfig} :
    document.normalized config = document ↔ document.IsNormal config := by
  have hprofile : (document.profile <|> config.defaultProfile) = document.profile ↔
      (document.profile = none → config.defaultProfile = none) := by
    cases document.profile <;> simp
  constructor
  · intro h
    have hcontext := congrArg OdrlDocument.context h
    have hassigner := congrArg OdrlDocument.assigner h
    have hassignee := congrArg OdrlDocument.assignee h
    exact ⟨hcontext.symm, hprofile.mp (congrArg OdrlDocument.profile h),
      normalParty_eq_self_iff.mp hassigner, normalParty_eq_self_iff.mp hassignee⟩
  · intro h
    rw [normalized, ← h.context, hprofile.mpr h.profile, normalParty_eq_self_iff.mpr h.assigner,
      normalParty_eq_self_iff.mpr h.assignee]

theorem isNormal_normalized (document : OdrlDocument) (config : CanonicalConfig) :
    (document.normalized config).IsNormal config where
  context := rfl
  profile h := by
    simp only [normalized] at h
    cases hprofile : document.profile with
    | none => simpa [hprofile] using h
    | some profile => simp [hprofile] at h
  assigner := normalParty_eq_self_iff.mp (normalParty_normalParty _ _)
  assignee := normalParty_eq_self_iff.mp (normalParty_normalParty _ _)

theorem party_getD (party : Option String) (required : Bool) :
    OdrlPolicy.party (party.getD "") required = normalParty required party := by
  cases required with
  | true => rfl
  | false =>
    cases party with
    | none => rfl
    | some name => by_cases h : name = "" <;> simp [OdrlPolicy.party, normalParty, h]

section Kind

variable {document : OdrlDocument} {kind : OdrlKind} (h : Vocabulary.term kind = document.kind)

include h

theorem requiresAssigner_of_term : kind.requiresAssigner = document.requiresAssigner := by
  rw [requiresAssigner, ← h]
  cases kind <;> decide

theorem requiresAssignee_of_term : kind.requiresAssignee = document.requiresAssignee := by
  rw [requiresAssignee, ← h]
  cases kind <;> decide

end Kind

theorem toDocument_of_toPolicy {document : OdrlDocument} {policy : OdrlPolicy}
    (h : document.toPolicy = .ok policy) (config : CanonicalConfig) :
    policy.toDocument config = document.normalized config := by
  obtain ⟨kind, hkind, permission, hpermission, prohibition, hprohibition, obligation, hobligation,
    rfl⟩ := toPolicy_eq_ok_iff.mp h
  have hnumber (first : Nat) (rules : List OdrlRule) :=
    @map_number _ _ OdrlRule.withId OdrlRule.toDocument (fun _ _ => rfl) first rules
  have hrules {documents : List RuleDocument} {rules : List OdrlRule}
      (hread : documents.mapM RuleDocument.toRule = .ok rules) :=
    map_of_mapM_eq_ok (fun _ _ => RuleDocument.toDocument_of_toRule) hread
  have hterm := Vocabulary.term_of_read hkind
  simp only [assemble, OdrlPolicy.renumbered, OdrlPolicy.toDocument, hnumber, hrules hpermission,
    hrules hprohibition, hrules hobligation, hterm, party_getD, requiresAssigner_of_term hterm,
    requiresAssignee_of_term hterm, normalized]

end OdrlDocument

namespace GenericDocument

def normalized (document : GenericDocument) : GenericDocument :=
  { document with
    status := if document.status = "" then "draft" else document.status
    targetResources := sortedTexts document.targetResources
    targetUsers := sortedTexts document.targetUsers
    enforcement := if document.enforcement = "" then "strict" else document.enforcement }

structure IsNormal (document : GenericDocument) : Prop where
  status : document.status ≠ ""
  targetResources : document.targetResources.Pairwise (· < ·)
  targetUsers : document.targetUsers.Pairwise (· < ·)
  enforcement : document.enforcement ≠ ""

theorem normalized_eq_self_iff {document : GenericDocument} :
    document.normalized = document ↔ document.IsNormal := by
  have hsorted (items : List String) : sortedTexts items = items ↔ items.Pairwise (· < ·) := by
    simp [sortedTexts_eq_iff]
  have hdefault {s d : String} (hd : d ≠ "") : (if s = "" then d else s) = s ↔ s ≠ "" := by
    by_cases h : s = "" <;> simp [h, hd]
  constructor
  · intro h
    have hstatus := congrArg GenericDocument.status h
    have hresources := congrArg GenericDocument.targetResources h
    have husers := congrArg GenericDocument.targetUsers h
    have henforcement := congrArg GenericDocument.enforcement h
    exact ⟨(hdefault (by decide)).mp hstatus, (hsorted _).mp hresources, (hsorted _).mp husers,
      (hdefault (by decide)).mp henforcement⟩
  · intro h
    rw [normalized, (hdefault (by decide)).mpr h.status, (hsorted _).mpr h.targetResources,
      (hsorted _).mpr h.targetUsers, (hdefault (by decide)).mpr h.enforcement]

theorem isNormal_normalized (document : GenericDocument) : document.normalized.IsNormal where
  status := by
    by_cases h : document.status = "" <;> simp [normalized, h]
  targetResources := ascending_sortedTexts _
  targetUsers := ascending_sortedTexts _
  enforcement := by
    by_cases h : document.enforcement = "" <;> simp [normalized, h]

theorem toDocument_of_toPolicy {document : GenericDocument} {policy : GenericPolicy}
    (h : document.toPolicy = .ok policy) : policy.toDocument = document.normalized := by
  obtain ⟨kind, hkind, status, hstatus, enforcement, henforcement, rules, hrules, rfl⟩ :=
    toPolicy_eq_ok_iff.mp h
  have hnumber :=
    @map_number _ _ GenericRule.withId GenericRule.toDocument (fun _ _ => rfl) 1 rules
  have hwritten := map_of_mapM_eq_ok (fun _ _ => GenericRuleDocument.toDocument_of_toRule) hrules
  simp only [assemble, GenericPolicy.renumbered, GenericPolicy.toDocument, hnumber, hwritten,
    Vocabulary.term_of_read hkind, Vocabulary.term_getD_of_read? hstatus,
    Vocabulary.term_getD_of_read? henforcement, TextSet.toList_ofList, normalized]
  rfl

structure SameButTargets (document other : GenericDocument) : Prop where
  rest : other = { document with
    targetResources := other.targetResources, targetUsers := other.targetUsers }
  targetResources : ∀ s, s ∈ other.targetResources ↔ s ∈ document.targetResources
  targetUsers : ∀ s, s ∈ other.targetUsers ↔ s ∈ document.targetUsers

theorem toPolicy_eq_of_sameButTargets {document other : GenericDocument}
    (h : document.SameButTargets other) : other.toPolicy = document.toPolicy := by
  have hresources := TextSet.ofList_eq_iff.mpr h.targetResources
  have husers := TextSet.ofList_eq_iff.mpr h.targetUsers
  rw [h.rest]
  simp only [toPolicy, hresources, husers]

end GenericDocument

namespace PolicyDocument

def normalized (document : PolicyDocument) (config : CanonicalConfig) : PolicyDocument :=
  match document with
  | .odrl document => .odrl (document.normalized config)
  | .generic document => .generic document.normalized

def IsNormal (document : PolicyDocument) (config : CanonicalConfig) : Prop :=
  match document with
  | .odrl document => document.IsNormal config
  | .generic document => document.IsNormal

theorem normalized_eq_self_iff {document : PolicyDocument} {config : CanonicalConfig} :
    document.normalized config = document ↔ document.IsNormal config := by
  cases document with
  | odrl document =>
    rw [normalized, PolicyDocument.odrl.injEq]
    exact OdrlDocument.normalized_eq_self_iff
  | generic document =>
    rw [normalized, PolicyDocument.generic.injEq]
    exact GenericDocument.normalized_eq_self_iff

theorem normalized_normalized (document : PolicyDocument) (config : CanonicalConfig) :
    (document.normalized config).normalized config = document.normalized config := by
  refine normalized_eq_self_iff.mpr ?_
  cases document with
  | odrl document => exact document.isNormal_normalized config
  | generic document => exact document.isNormal_normalized

theorem toDocument_of_toPolicy {document : PolicyDocument} {policy : Policy}
    (h : document.toPolicy = .ok policy) (config : CanonicalConfig) :
    policy.toDocument config = document.normalized config := by
  cases document with
  | odrl document =>
    obtain ⟨policy, himport, rfl⟩ := map_eq_ok_iff.mp h
    exact congrArg PolicyDocument.odrl (OdrlDocument.toDocument_of_toPolicy himport config)
  | generic document =>
    obtain ⟨policy, himport, rfl⟩ := map_eq_ok_iff.mp h
    exact congrArg PolicyDocument.generic (GenericDocument.toDocument_of_toPolicy himport)

theorem export_of_import {document : PolicyDocument} {policy : Policy}
    (h : document.toPolicy = .ok policy) (config : CanonicalConfig) :
    policy.toDocument config = document.normalized config ∧
    (policy.toDocument config = document ↔ document.IsNormal config) ∧
    (∃ again, (policy.toDocument config).toPolicy = .ok again ∧
      again.toDocument config = policy.toDocument config) ∧
    ∀ generic other : GenericDocument, document = .generic generic →
      generic.SameButTargets other → ∃ twin, (PolicyDocument.generic other).toPolicy = .ok twin ∧
        twin.toDocument config = policy.toDocument config := by
  have hnormal := toDocument_of_toPolicy h config
  refine ⟨hnormal, ?_, ?_, ?_⟩
  · rw [hnormal]
    exact normalized_eq_self_iff
  · have hagain := Policy.toPolicy_toDocument policy config
    refine ⟨_, hagain, ?_⟩
    rw [toDocument_of_toPolicy hagain, hnormal, normalized_normalized]
  · rintro generic other rfl hsame
    have hother : (PolicyDocument.generic other).toPolicy = .ok policy := by
      rw [toPolicy, GenericDocument.toPolicy_eq_of_sameButTargets hsame]
      exact h
    exact ⟨policy, hother, rfl⟩

def openOffer : OdrlDocument where
  context := "urn:context"
  kind := "Offer"
  uid := ""
  profile := none
  assigner := none
  assignee := some ""
  target := "urn:asset"
  permission := [⟨"read", none, [⟨"dateTime", "", "1"⟩]⟩]
  prohibition := []
  obligation := [⟨"", some "urn:part", []⟩]

theorem export_of_openOffer : ∃ policy, (PolicyDocument.odrl openOffer).toPolicy = .ok policy ∧
    policy.toDocument ⟨"urn:odrl", some "urn:profile", true⟩ =
      .odrl { openOffer with
        context := "urn:odrl"
        profile := some "urn:profile"
        assigner := some ""
        assignee := none } := by
  have himport : ∃ policy, (PolicyDocument.odrl openOffer).toPolicy = .ok policy := ⟨_, rfl⟩
  obtain ⟨policy, himport⟩ := himport
  have hexport := (export_of_import himport ⟨"urn:odrl", some "urn:profile", true⟩).1
  exact ⟨policy, himport, hexport⟩

end PolicyDocument

end RightsPolicy
