namespace RightsPolicy

structure UnknownTerm where
  label : String
  term : String
  deriving DecidableEq, Repr

def UnknownTerm.message (unknown : UnknownTerm) : String :=
  "Unknown " ++ unknown.label ++ " '" ++ unknown.term ++ "'"

class Vocabulary (α : Type) [DecidableEq α] where
  label : String
  values : List α
  term : α → String
  complete : ∀ a, a ∈ values
  distinct : (values.map term).Nodup
  written : "" ∉ values.map term

namespace Vocabulary

variable {α : Type} [DecidableEq α] [Vocabulary α]

def terms (α : Type) [DecidableEq α] [Vocabulary α] : List String :=
  (values (α := α)).map term

def ofTerm? (s : String) : Option α :=
  values.find? fun a => term a = s

def read (s : String) : Except UnknownTerm α :=
  match ofTerm? s with
  | some a => .ok a
  | none => .error ⟨label α, s⟩

def read? (s : String) : Except UnknownTerm (Option α) :=
  if s = "" then .ok none else (read s).map some

def termOrEmpty : Option α → String
  | some a => term a
  | none => ""

def index (a : α) : Nat :=
  values.idxOf a

instance (priority := low) : Ord α where
  compare a b := compare (index a) (index b)

theorem eq_of_nodup_map {β γ : Type} {f : β → γ} {l : List β} (h : (l.map f).Nodup) {a b : β}
    (ha : a ∈ l) (hb : b ∈ l) (hab : f a = f b) : a = b := by
  induction l with
  | nil => simp at ha
  | cons c l ih =>
    simp only [List.map_cons, List.nodup_cons, List.mem_map, not_exists, not_and] at h
    rcases List.mem_cons.mp ha with hac | hac <;> rcases List.mem_cons.mp hb with hbc | hbc
    · exact hac.trans hbc.symm
    · exact absurd (hab.symm.trans (congrArg f hac)) (h.1 b hbc)
    · exact absurd (hab.trans (congrArg f hbc)) (h.1 a hac)
    · exact ih h.2 hac hbc

theorem term_injective {a b : α} (h : term a = term b) : a = b :=
  eq_of_nodup_map distinct (complete a) (complete b) h

theorem ofTerm?_eq_some_iff {s : String} {a : α} : ofTerm? s = some a ↔ s = term a := by
  constructor
  · intro h
    have := List.find?_some h
    simp only [decide_eq_true_eq] at this
    exact this.symm
  · rintro rfl
    unfold ofTerm?
    cases h : (values (α := α)).find? fun b => term b = term a with
    | none =>
      have := List.find?_eq_none.mp h a (complete a)
      simp at this
    | some b =>
      have := List.find?_some h
      simp only [decide_eq_true_eq] at this
      rw [term_injective this]

@[simp]
theorem ofTerm?_term (a : α) : ofTerm? (term a) = some a :=
  ofTerm?_eq_some_iff.mpr rfl

@[simp]
theorem read_term (a : α) : read (term a) = .ok a := by
  simp [read]

theorem term_ne_empty (a : α) : term a ≠ "" := by
  intro h
  exact written (List.mem_map.mpr ⟨a, complete a, h⟩)

@[simp]
theorem read?_termOrEmpty (value : Option α) : read? (termOrEmpty value) = .ok value := by
  cases value with
  | none => rfl
  | some a =>
    rw [termOrEmpty, read?, if_neg (term_ne_empty a), read_term]
    rfl

end Vocabulary

end RightsPolicy
