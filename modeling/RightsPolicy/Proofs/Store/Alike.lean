import Mathlib.Data.List.Forall2
import RightsPolicy.Proofs.Store.Counter

namespace RightsPolicy

namespace Store

structure Alike (a b : Store) : Prop where
  left : a.Indexed
  right : b.Indexed
  latest : ∀ key, (a.latest? key).map (·.policy) = (b.latest? key).map (·.policy)
  nextGenericId : a.nextGenericId = b.nextGenericId
  size : a.size = b.size

variable {a b : Store} {keyPrefix : String} {draws : List Uuid} {policy : Policy} {key : PolicyKey}

theorem alike_refl (h : a.Indexed) : a.Alike a :=
  ⟨h, h, fun _ => rfl, rfl, rfl⟩

theorem alike_of_reachable (ha : a.Reachable) (hb : b.Reachable)
    (hlatest : ∀ key, (a.latest? key).map (·.policy) = (b.latest? key).map (·.policy))
    (hgreatest : a.greatestId = b.greatestId) (hsize : a.size = b.size) : a.Alike b := by
  refine ⟨ha.keyed.toIndexed, hb.keyed.toIndexed, hlatest, ?_, hsize⟩
  have hcounter : a.nextGenericId.map UInt64.toNat = b.nextGenericId.map UInt64.toNat := by
    rw [ha.counted, hb.counted, hgreatest]
  exact Option.map_injective (fun _ _ => UInt64.toNat_inj.mp) hcounter

theorem freeDraw?_congr (hhas : a.has = b.has) (keyPrefix : String) (draws : List Uuid) :
    a.freeDraw? keyPrefix draws = b.freeDraw? keyPrefix draws := by
  induction draws with
  | nil => rfl
  | cons uuid draws ih => rw [freeDraw?, freeDraw?, hhas, ih]

theorem freeId?_congr (hhas : a.has = b.has) (hnext : a.nextGenericId = b.nextGenericId) :
    a.freeId? = b.freeId? := by
  rw [freeId?, freeId?, hhas, hnext]

namespace Alike

theorem has_eq (h : a.Alike b) : a.has = b.has := by
  funext key
  rw [has_eq_isSome h.left, has_eq_isSome h.right, ← Option.isSome_map, h.latest,
    Option.isSome_map]

theorem load_eq (h : a.Alike b) : a.load key = b.load key := by
  have hlatest := h.latest key
  unfold load
  cases ha : a.latest? key <;> cases hb : b.latest? key <;> simp_all

theorem counterFor_eq (h : a.Alike b) : a.counterFor policy = b.counterFor policy := by
  unfold counterFor
  rw [h.nextGenericId]

theorem conflict?_eq (h : a.Alike b) : a.conflict? policy key = b.conflict? policy key := by
  have hlatest := h.latest key
  unfold conflict?
  cases ha : a.latest? key <;> cases hb : b.latest? key <;> simp_all

theorem withCounter (h : a.Alike b) (next : Option UInt64) :
    (a.withCounter next).Alike (b.withCounter next) :=
  ⟨h.left.withCounter next, h.right.withCounter next, h.latest, rfl, h.size⟩

theorem assignOwn (h : a.Alike b) (policy : Policy) (key : PolicyKey) (draws : List Uuid) :
    (a.assignOwn policy key draws).1 = (b.assignOwn policy key draws).1 ∧
      (a.assignOwn policy key draws).2.Alike (b.assignOwn policy key draws).2 := by
  unfold Store.assignOwn
  rw [h.conflict?_eq, h.counterFor_eq]
  cases b.conflict? policy key with
  | some cause => exact ⟨rfl, h⟩
  | none => exact ⟨rfl, h.withCounter _⟩

theorem assign (h : a.Alike b) (keyPrefix : String) (policy : Policy) (draws : List Uuid) :
    (a.assign keyPrefix policy draws).1 = (b.assign keyPrefix policy draws).1 ∧
      (a.assign keyPrefix policy draws).2.Alike (b.assign keyPrefix policy draws).2 := by
  unfold Store.assign
  cases policy.ownKey? with
  | some key => exact h.assignOwn policy key draws
  | none =>
    cases policy with
    | odrl policy =>
      simp only [assignGenerated, freeDraw?_congr h.has_eq]
      cases b.freeDraw? keyPrefix draws with
      | some found => exact ⟨rfl, h⟩
      | none => exact ⟨rfl, h⟩
    | generic policy =>
      simp only [assignGenerated, takeId, freeId?_congr h.has_eq h.nextGenericId]
      cases b.freeId? with
      | some id => exact ⟨rfl, h.withCounter _⟩
      | none => exact ⟨rfl, h⟩

theorem append (h : a.Alike b) (assigned : Assigned) (now later : Instant) :
    (a.append assigned now).Alike (b.append assigned later) where
  left := indexed_append h.left
  right := indexed_append h.right
  latest key := by
    rw [latest?_append h.left, latest?_append h.right]
    split
    · rfl
    · exact h.latest key
  nextGenericId := h.nextGenericId
  size := by
    have hsize := h.size
    simp only [Store.size, Store.append, Array.size_push] at hsize ⊢
    rw [hsize]

theorem save (h : a.Alike b) (keyPrefix : String) (policy : Policy) (now later : Instant)
    (draws : List Uuid) :
    (a.save keyPrefix policy now draws).1 = (b.save keyPrefix policy later draws).1 ∧
      (a.save keyPrefix policy now draws).2.Alike (b.save keyPrefix policy later draws).2 := by
  obtain ⟨houtcome, hafter⟩ := h.assign keyPrefix policy draws
  unfold Store.save
  cases ha : a.assign keyPrefix policy draws with
  | mk outcome after =>
    cases hb : b.assign keyPrefix policy draws with
    | mk other afterOther =>
      rw [ha, hb] at houtcome hafter
      cases houtcome
      cases outcome with
      | error cause => exact ⟨rfl, hafter⟩
      | ok assigned => exact ⟨rfl, hafter.append assigned now later⟩

end Alike

end Store

namespace SharedStore

inductive Alike : SharedStore → SharedStore → Prop where
  | usable {a b : Store} (h : a.Alike b) : Alike (usable a) (usable b)
  | poisoned : Alike poisoned poisoned

/-- The calls are the same, but for what the clock says at the saves. Neither of them is a list,
which would show the times and the order of all entries. -/
inductive Call.SameButTime : Call → Call → Prop where
  | save (keyPrefix : String) (policy : Policy) {now? later? : Option Instant} (draws : List Uuid)
      (hclock : now?.isSome = later?.isSome) :
      SameButTime (.save keyPrefix policy now? draws) (.save keyPrefix policy later? draws)
  | load (key : PolicyKey) : SameButTime (.load key) (.load key)
  | size : SameButTime .size .size

def answers (shared : SharedStore) (calls : List Call) : List Answer :=
  (shared.run calls).1.map Prod.snd

def Indistinguishable (a b : SharedStore) : Prop :=
  ∀ calls others, List.Forall₂ Call.SameButTime calls others → a.answers calls = b.answers others

variable {a b : SharedStore}

theorem Alike.look {view : Store → Answer} (h : a.Alike b)
    (hview : ∀ s t : Store, s.Alike t → view s = view t) : a.look view = b.look view := by
  cases h with
  | usable h => exact hview _ _ h
  | poisoned => rfl

theorem Alike.save (h : a.Alike b) (keyPrefix : String) (policy : Policy)
    {now? later? : Option Instant} (draws : List Uuid) (hclock : now?.isSome = later?.isSome) :
    (a.call (.save keyPrefix policy now? draws)).1 =
        (b.call (.save keyPrefix policy later? draws)).1 ∧
      (a.call (.save keyPrefix policy now? draws)).2.Alike
        (b.call (.save keyPrefix policy later? draws)).2 := by
  cases h with
  | poisoned => exact ⟨rfl, .poisoned⟩
  | @usable s t h =>
    obtain ⟨houtcome, hafter⟩ := h.assign keyPrefix policy draws
    simp only [SharedStore.call, SharedStore.save, get]
    cases hs : s.assign keyPrefix policy draws with
    | mk outcome after =>
      cases ht : t.assign keyPrefix policy draws with
      | mk other afterOther =>
        rw [hs, ht] at houtcome hafter
        cases houtcome
        cases outcome with
        | error cause => exact ⟨rfl, .usable hafter⟩
        | ok assigned =>
          cases now? <;> cases later? <;> cases hclock
          · exact ⟨rfl, .poisoned⟩
          · exact ⟨rfl, .usable (hafter.append assigned _ _)⟩

theorem Alike.call {one other : Call} (h : a.Alike b) (hcalls : one.SameButTime other) :
    (a.call one).1 = (b.call other).1 ∧ (a.call one).2.Alike (b.call other).2 := by
  cases hcalls with
  | save keyPrefix policy draws hclock => exact h.save keyPrefix policy draws hclock
  | load key =>
    refine ⟨h.look ?_, h⟩
    intro s t hst
    rw [hst.load_eq]
  | size =>
    refine ⟨h.look ?_, h⟩
    intro s t hst
    rw [hst.size]

theorem Alike.indistinguishable (h : a.Alike b) : a.Indistinguishable b := by
  intro calls others hcalls
  induction hcalls generalizing a b with
  | nil => rfl
  | @cons call other calls others hcall _ ih =>
    obtain ⟨hanswer, hafter⟩ := h.call hcall
    have hrest := ih hafter
    rw [answers] at hrest
    rw [answers, run, List.map_cons, hanswer, hrest]
    rfl

end SharedStore

end RightsPolicy
