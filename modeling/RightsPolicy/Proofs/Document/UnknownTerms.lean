import RightsPolicy.Journal

namespace RightsPolicy

structure TermField where
  label : String
  terms : List String
  isRequired : Bool
  text : String
  deriving DecidableEq, Repr

namespace TermField

def of (α : Type) [DecidableEq α] [Vocabulary α] (isRequired : Bool) (text : String) : TermField :=
  ⟨Vocabulary.label α, Vocabulary.terms α, isRequired, text⟩

def IsUnknown (field : TermField) : Prop :=
  field.text ∉ field.terms ∧ (field.isRequired = true ∨ field.text ≠ "")

instance (field : TermField) : Decidable field.IsUnknown :=
  inferInstanceAs (Decidable (_ ∧ _))

def unknownTerm (field : TermField) : UnknownTerm :=
  ⟨field.label, field.text⟩

def firstUnknown? (fields : List TermField) : Option UnknownTerm :=
  (fields.find? fun field => field.IsUnknown).map unknownTerm

theorem firstUnknown?_append (fields others : List TermField) :
    firstUnknown? (fields ++ others) = (firstUnknown? fields).or (firstUnknown? others) := by
  rw [firstUnknown?, List.find?_append, Option.map_or, ← firstUnknown?, ← firstUnknown?]

theorem firstUnknown?_singleton (field : TermField) :
    firstUnknown? [field] = if field.IsUnknown then some field.unknownTerm else none := by
  by_cases h : field.IsUnknown <;> simp [firstUnknown?, h]

theorem firstUnknown?_eq_some_iff {fields : List TermField} {unknown : UnknownTerm} :
    firstUnknown? fields = some unknown ↔
      ∃ before field behind, fields = before ++ field :: behind ∧
        (∀ earlier ∈ before, ¬ earlier.IsUnknown) ∧ field.IsUnknown ∧
        field.unknownTerm = unknown := by
  simp only [firstUnknown?, Option.map_eq_some_iff, List.find?_eq_some_iff_append,
    decide_eq_true_eq, Bool.not_eq_true', decide_eq_false_iff_not]
  constructor
  · rintro ⟨field, ⟨hfield, before, behind, hfields, hbefore⟩, hunknown⟩
    exact ⟨before, field, behind, hfields, hbefore, hfield, hunknown⟩
  · rintro ⟨before, field, behind, hfields, hbefore, hfield, hunknown⟩
    exact ⟨field, ⟨hfield, before, behind, hfields, hbefore⟩, hunknown⟩

theorem exists_firstUnknown?_iff {fields : List TermField} :
    (∃ unknown, firstUnknown? fields = some unknown) ↔ ∃ field ∈ fields, field.IsUnknown := by
  rw [← Option.isSome_iff_exists, firstUnknown?, Option.isSome_map, List.find?_isSome]
  simp only [decide_eq_true_eq]

end TermField

def ConstraintDocument.termFields (document : ConstraintDocument) : List TermField :=
  [.of LeftOperand false document.leftOperand, .of ConstraintOperator false document.operator]

def RuleDocument.termFields (document : RuleDocument) : List TermField :=
  .of Action false document.action ::
    document.constraints.flatMap ConstraintDocument.termFields

def OdrlDocument.termFields (document : OdrlDocument) : List TermField :=
  .of OdrlKind true document.kind ::
    (document.permission ++ document.prohibition ++ document.obligation).flatMap
      RuleDocument.termFields

def GenericRuleDocument.termFields (document : GenericRuleDocument) : List TermField :=
  [.of RuleType false document.ruleType, .of ComparisonOperator false document.operator]

def GenericDocument.termFields (document : GenericDocument) : List TermField :=
  .of GenericKind true document.kind :: .of Status false document.status ::
    .of Enforcement false document.enforcement ::
    document.rules.flatMap GenericRuleDocument.termFields

def PolicyDocument.termFields : PolicyDocument → List TermField
  | .odrl document => document.termFields
  | .generic document => document.termFields

def StopsAtUnknown {α : Type} (fields : List TermField) (x : Except UnknownTerm α) : Prop :=
  ∀ unknown, x = .error unknown ↔ TermField.firstUnknown? fields = some unknown

namespace StopsAtUnknown

variable {α β : Type} {fields others : List TermField} {x : Except UnknownTerm α}

theorem ok (a : α) : StopsAtUnknown [] (.ok a) :=
  fun _ => ⟨nofun, nofun⟩

theorem bind {f : α → Except UnknownTerm β} (h : StopsAtUnknown fields x)
    (hf : ∀ a, StopsAtUnknown others (f a)) : StopsAtUnknown (fields ++ others) (x >>= f) := by
  intro unknown
  rw [TermField.firstUnknown?_append]
  cases x with
  | error cause =>
    rw [(h cause).mp rfl, Option.some_or]
    simp [Bind.bind, Except.bind]
  | ok a =>
    -- all of the first texts are known, so the first unknown one is among the others
    have hnone : TermField.firstUnknown? fields = none := by
      refine Option.eq_none_iff_forall_ne_some.mpr ?_
      intro cause hcause
      cases (h cause).mpr hcause
    rw [hnone, Option.none_or]
    exact hf a unknown

theorem map (h : StopsAtUnknown fields x) (f : α → β) : StopsAtUnknown fields (x.map f) := by
  intro unknown
  rw [← h unknown]
  cases x <;> simp [Except.map]

theorem mapM {fields : α → List TermField} {f : α → Except UnknownTerm β}
    (h : ∀ a, StopsAtUnknown (fields a) (f a)) (items : List α) :
    StopsAtUnknown (items.flatMap fields) (items.mapM f) := by
  induction items with
  | nil => exact ok []
  | cons a items ih =>
    rw [List.mapM_cons, List.flatMap_cons, ← List.append_nil (items.flatMap fields)]
    exact (h a).bind fun b => ih.bind fun rest => ok (b :: rest)

end StopsAtUnknown

namespace Vocabulary

variable {α : Type} [DecidableEq α] [Vocabulary α]

theorem read_eq_error_iff {s : String} {unknown : UnknownTerm} :
    (read s : Except UnknownTerm α) = .error unknown ↔ s ∉ terms α ∧ ⟨label α, s⟩ = unknown := by
  have hnone : (ofTerm? s : Option α) = none ↔ s ∉ terms α := by simp [ofTerm?, terms]
  unfold read
  cases h : (ofTerm? s : Option α) with
  | none => simp [hnone.mp h]
  | some a => simp [← hnone, h]

theorem stopsAtUnknown_read (s : String) :
    StopsAtUnknown [.of α true s] (read s : Except UnknownTerm α) := by
  intro unknown
  rw [read_eq_error_iff, TermField.firstUnknown?_singleton]
  simp [TermField.IsUnknown, TermField.of, TermField.unknownTerm]

theorem stopsAtUnknown_read? (s : String) :
    StopsAtUnknown [.of α false s] (read? s : Except UnknownTerm (Option α)) := by
  by_cases hempty : s = ""
  · intro unknown
    rw [TermField.firstUnknown?_singleton, read?, if_pos hempty]
    simp [TermField.IsUnknown, TermField.of, hempty]
  · rw [read?, if_neg hempty]
    refine StopsAtUnknown.map ?_ some
    intro unknown
    rw [read_eq_error_iff, TermField.firstUnknown?_singleton]
    simp [TermField.IsUnknown, TermField.of, TermField.unknownTerm, hempty]

end Vocabulary

theorem ConstraintDocument.stopsAtUnknown (document : ConstraintDocument) :
    StopsAtUnknown document.termFields document.toConstraint :=
  (Vocabulary.stopsAtUnknown_read? _).bind fun _ =>
    (Vocabulary.stopsAtUnknown_read? _).bind fun _ => .ok _

theorem RuleDocument.stopsAtUnknown (document : RuleDocument) :
    StopsAtUnknown document.termFields document.toRule := by
  rw [termFields, ← List.append_nil (document.constraints.flatMap _)]
  exact (Vocabulary.stopsAtUnknown_read? _).bind fun _ =>
    (StopsAtUnknown.mapM ConstraintDocument.stopsAtUnknown _).bind fun _ => .ok _

theorem OdrlDocument.stopsAtUnknown (document : OdrlDocument) :
    StopsAtUnknown document.termFields document.toPolicy := by
  have hrules := StopsAtUnknown.mapM RuleDocument.stopsAtUnknown
  rw [termFields, List.flatMap_append, List.flatMap_append, List.append_assoc,
    ← List.append_nil (document.obligation.flatMap _)]
  exact (Vocabulary.stopsAtUnknown_read _).bind fun _ => (hrules _).bind fun _ =>
    (hrules _).bind fun _ => (hrules _).bind fun _ => .ok _

theorem GenericRuleDocument.stopsAtUnknown (document : GenericRuleDocument) :
    StopsAtUnknown document.termFields document.toRule :=
  (Vocabulary.stopsAtUnknown_read? _).bind fun _ =>
    (Vocabulary.stopsAtUnknown_read? _).bind fun _ => .ok _

theorem GenericDocument.stopsAtUnknown (document : GenericDocument) :
    StopsAtUnknown document.termFields document.toPolicy := by
  rw [termFields, ← List.append_nil (document.rules.flatMap _)]
  exact (Vocabulary.stopsAtUnknown_read _).bind fun _ =>
    (Vocabulary.stopsAtUnknown_read? _).bind fun _ =>
      (Vocabulary.stopsAtUnknown_read? _).bind fun _ =>
        (StopsAtUnknown.mapM GenericRuleDocument.stopsAtUnknown _).bind fun _ => .ok _

namespace PolicyDocument

theorem stopsAtUnknown (document : PolicyDocument) :
    StopsAtUnknown document.termFields document.toPolicy := by
  cases document with
  | odrl document => exact document.stopsAtUnknown.map Policy.odrl
  | generic document => exact document.stopsAtUnknown.map Policy.generic

theorem value_toPolicy (document : PolicyDocument) :
    (Journal.toPolicy document).value = document.toPolicy.mapError .unknownTerm := by
  unfold Journal.toPolicy
  cases document.toPolicy <;> rfl

theorem value_toPolicy_eq_error_iff {document : PolicyDocument} {cause : PolicyError} :
    (Journal.toPolicy document).value = .error cause ↔
      ∃ unknown, TermField.firstUnknown? document.termFields = some unknown ∧
        .unknownTerm unknown = cause := by
  rw [value_toPolicy]
  simp only [← document.stopsAtUnknown _]
  cases document.toPolicy with
  | ok policy => exact ⟨nofun, nofun⟩
  | error unknown =>
    constructor
    · rintro ⟨⟩
      exact ⟨unknown, rfl, rfl⟩
    · rintro ⟨_, ⟨⟩, rfl⟩
      rfl

theorem import_fails_at_first_unknown (document : PolicyDocument) :
    ((∃ cause, (Journal.toPolicy document).value = .error cause) ↔
      ∃ field ∈ document.termFields, field.IsUnknown) ∧
    ∀ cause, (Journal.toPolicy document).value = .error cause ↔
      ∃ before field behind, document.termFields = before ++ field :: behind ∧
        (∀ earlier ∈ before, ¬ earlier.IsUnknown) ∧ field.IsUnknown ∧
        cause = .unknownTerm ⟨field.label, field.text⟩ := by
  refine ⟨?_, ?_⟩
  · simp only [value_toPolicy_eq_error_iff, ← TermField.exists_firstUnknown?_iff]
    constructor
    · rintro ⟨cause, unknown, hunknown, -⟩
      exact ⟨unknown, hunknown⟩
    · rintro ⟨unknown, hunknown⟩
      exact ⟨.unknownTerm unknown, unknown, hunknown, rfl⟩
  · intro cause
    simp only [value_toPolicy_eq_error_iff, TermField.firstUnknown?_eq_some_iff]
    constructor
    · rintro ⟨_, ⟨before, field, behind, hfields, hbefore, hfield, rfl⟩, rfl⟩
      exact ⟨before, field, behind, hfields, hbefore, hfield, rfl⟩
    · rintro ⟨before, field, behind, hfields, hbefore, hfield, rfl⟩
      exact ⟨_, ⟨before, field, behind, hfields, hbefore, hfield, rfl⟩, rfl⟩

example : TermField.firstUnknown? (RuleDocument.termFields
      ⟨"", none, [⟨"purpose", "eq", "research"⟩, ⟨"use", "like", ""⟩]⟩) =
    some ⟨"left operand", "use"⟩ := by
  decide

end PolicyDocument

end RightsPolicy
