import Mathlib.Data.List.Basic
import RightsPolicy.Proofs.Validation.Order

namespace RightsPolicy

def indexWithout (removed index : Nat) : Option Nat :=
  if index = removed then none else some (if removed < index then index - 1 else index)

theorem indexWithout_self (removed : Nat) : indexWithout removed removed = none :=
  if_pos rfl

theorem indexWithout_of_lt {removed index : Nat} (h : index < removed) :
    indexWithout removed index = some index := by
  rw [indexWithout, if_neg (Nat.ne_of_lt h), if_neg (Nat.lt_asymm h)]

theorem indexWithout_succ {removed index : Nat} (h : removed ≤ index) :
    indexWithout removed (index + 1) = some index := by
  have hlt : removed < index + 1 := Nat.lt_succ_of_le h
  rw [indexWithout, if_neg (Nat.ne_of_gt hlt), if_pos hlt, Nat.add_sub_cancel]

abbrev Move := Location → Option Location

namespace Move

def withoutRule (partition : Option Partition) (removed : Nat) : Move
  | .policy => some .policy
  | .rule other index =>
    if other = partition then (indexWithout removed index).map (.rule other)
    else some (.rule other index)
  | .constraint other ruleIndex index =>
    if some other = partition then
      (indexWithout removed ruleIndex).map (.constraint other · index)
    else some (.constraint other ruleIndex index)

def withoutConstraint (partition : Partition) (ruleIndex removed : Nat) : Move
  | .constraint other otherIndex index =>
    if other = partition ∧ otherIndex = ruleIndex then
      (indexWithout removed index).map (.constraint other otherIndex)
    else some (.constraint other otherIndex index)
  | location => some location

structure Within (move : Move) (partition : Partition) : Prop where
  policy : move .policy = some .policy
  rule : ∀ other index, other ≠ partition →
    move (.rule (some other) index) = some (.rule (some other) index)
  constraint : ∀ other ruleIndex index, other ≠ partition →
    move (.constraint other ruleIndex index) = some (.constraint other ruleIndex index)

theorem withoutRule_within (partition : Partition) (removed : Nat) :
    (withoutRule (some partition) removed).Within partition where
  policy := rfl
  rule _ _ hne := if_neg fun h => hne (Option.some.inj h)
  constraint _ _ _ hne := if_neg fun h => hne (Option.some.inj h)

theorem withoutConstraint_within (partition : Partition) (ruleIndex removed : Nat) :
    (withoutConstraint partition ruleIndex removed).Within partition where
  policy := rfl
  rule _ _ _ := rfl
  constraint _ _ _ hne := if_neg fun h => hne h.1

end Move

def Violation.relocate (move : Move) (v : Violation) : Option Violation :=
  (move v.location).map fun location => { v with location := location }

def relocate (move : Move) (vs : List Violation) : List Violation :=
  vs.filterMap (Violation.relocate move)

section Relocate

variable {move : Move}

theorem relocate_append (vs ws : List Violation) :
    relocate move (vs ++ ws) = relocate move vs ++ relocate move ws :=
  List.filterMap_append

theorem relocate_flatMap {α : Type} (items : List α) (check : α → List Violation) :
    relocate move (items.flatMap check) = items.flatMap fun a => relocate move (check a) :=
  List.filterMap_flatMap

theorem relocate_of_fixed {vs : List Violation} (h : ∀ v ∈ vs, move v.location = some v.location) :
    relocate move vs = vs := by
  have hfixed : ∀ v ∈ vs, Violation.relocate move v = some v := by
    intro v hv
    rw [Violation.relocate, h v hv]
    rfl
  rw [relocate, List.filterMap_congr hfixed, List.filterMap_some]

theorem relocate_of_policy {vs : List Violation} (hmove : move .policy = some .policy)
    (h : ∀ v ∈ vs, v.location = .policy) : relocate move vs = vs := by
  refine relocate_of_fixed ?_
  intro v hv
  rw [h v hv, hmove]

end Relocate

def Follows (check : Location → List Violation) : Prop :=
  ∀ (move : Move) (location : Location),
    relocate move (check location) = ((move location).map check).getD []

theorem Follows.violationIf (unmet : Bool) (code : ViolationCode) (field : String) :
    Follows fun location => violationIf unmet code location field := by
  intro move location
  cases unmet <;> cases hmove : move location <;>
    simp [RightsPolicy.violationIf, relocate, Violation.relocate, hmove]

theorem Follows.append {check other : Location → List Violation} (h : Follows check)
    (hother : Follows other) : Follows fun location => check location ++ other location := by
  intro move location
  rw [relocate_append, h, hother]
  cases move location <;> rfl

theorem Constraint.follows (constraint : Constraint) : Follows constraint.violations :=
  ((Follows.violationIf _ _ _).append (.violationIf _ _ _)).append (.violationIf _ _ _)

theorem Follows.eq_of_fixed {check : Location → List Violation} (h : Follows check) {move : Move}
    {location : Location} (hmove : move location = some location) :
    relocate move (check location) = check location := by
  rw [h, hmove]
  rfl

section Items

variable {α β : Type}

theorem flatMap_zipIdx_indexWithout (items : List α) (check : α → Nat → List β)
    (first removed : Nat) :
    ((items.zipIdx first).flatMap fun (a, index) =>
      ((indexWithout (first + removed) index).map (check a)).getD []) =
        ((items.eraseIdx removed).zipIdx first).flatMap fun (a, index) => check a index := by
  induction items generalizing first removed with
  | nil => rfl
  | cons a items ih =>
    cases removed with
    | zero =>
      simp only [Nat.add_zero, List.zipIdx_cons, List.flatMap_cons, indexWithout_self,
        List.eraseIdx_cons_zero, List.zipIdx_succ, List.flatMap_map]
      refine List.flatMap_congr ?_
      intro entry hentry
      rw [indexWithout_succ (List.le_snd_of_mem_zipIdx hentry)]
      rfl
    | succ removed =>
      have hlt : first < first + (removed + 1) := by omega
      have hrest := ih (first + 1) removed
      rw [Nat.add_assoc, Nat.add_comm 1] at hrest
      simp only [List.zipIdx_cons, List.flatMap_cons, indexWithout_of_lt hlt, hrest,
        List.eraseIdx_cons_succ]
      rfl

theorem flatMap_zipIdx_set {items : List α} {before after : α → Nat → List β} {first place : Nat}
    {item edited : α} (hitem : items[place]? = some item)
    (hedited : before item (first + place) = after edited (first + place))
    (hother : ∀ a index, index ≠ first + place → before a index = after a index) :
    ((items.zipIdx first).flatMap fun (a, index) => before a index) =
      ((items.set place edited).zipIdx first).flatMap fun (a, index) => after a index := by
  induction items generalizing first place with
  | nil => cases hitem
  | cons a items ih =>
    cases place with
    | zero =>
      cases hitem
      refine congrArg₂ (· ++ ·) hedited (List.flatMap_congr ?_)
      intro entry hentry
      have hle := List.le_snd_of_mem_zipIdx hentry
      exact hother _ _ (by omega)
    | succ place =>
      rw [← Nat.add_assoc, Nat.add_right_comm] at hedited hother
      exact congrArg₂ (· ++ ·) (hother _ _ (by omega)) (ih hitem hedited hother)

variable (items : List α) (check : α → Nat → List Violation) {move : Move}

theorem relocate_zipIdx_fixed (h : ∀ a index, relocate move (check a index) = check a index) :
    relocate move (items.zipIdx.flatMap fun (a, index) => check a index) =
      items.zipIdx.flatMap fun (a, index) => check a index := by
  rw [relocate_flatMap]
  exact List.flatMap_congr fun entry _ => h entry.1 entry.2

theorem relocate_zipIdx_eraseIdx {removed : Nat} (h : ∀ a index,
    relocate move (check a index) = ((indexWithout removed index).map (check a)).getD []) :
    relocate move (items.zipIdx.flatMap fun (a, index) => check a index) =
      (items.eraseIdx removed).zipIdx.flatMap fun (a, index) => check a index := by
  have hremoved := flatMap_zipIdx_indexWithout items check 0 removed
  rw [Nat.zero_add] at hremoved
  rw [relocate_flatMap, ← hremoved]
  exact List.flatMap_congr fun entry _ => h entry.1 entry.2

variable {items} in
theorem relocate_zipIdx_set {place : Nat} {item edited : α} (hitem : items[place]? = some item)
    (hedited : relocate move (check item place) = check edited place)
    (hother : ∀ a index, index ≠ place → relocate move (check a index) = check a index) :
    relocate move (items.zipIdx.flatMap fun (a, index) => check a index) =
      (items.set place edited).zipIdx.flatMap fun (a, index) => check a index := by
  rw [← Nat.zero_add place] at hedited hother
  rw [relocate_flatMap]
  exact @flatMap_zipIdx_set α Violation items (fun a index => relocate move (check a index)) check
    0 place item edited hitem hedited hother

end Items

end RightsPolicy
