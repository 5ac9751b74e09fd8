import RightsPolicy.Document.Codec
import RightsPolicy.Proofs.Policy.SameButIds
import RightsPolicy.Proofs.Store.Alike

namespace RightsPolicy

structure StoredPolicy.SameButIds (a b : StoredPolicy) : Prop where
  rest : b = { a with policy := b.policy }
  policy : a.policy.SameButIds b.policy

structure Store.SameButIds (a b : Store) : Prop where
  rest : b = { a with entries := b.entries }
  entries : List.Forall₂ StoredPolicy.SameButIds a.entries.toList b.entries.toList

structure Store.Assigned.SameButIds (a b : Assigned) : Prop where
  rest : b = { a with snapshot := b.snapshot }
  snapshot : a.snapshot.SameButIds b.snapshot

inductive SharedStore.SameButIds : SharedStore → SharedStore → Prop where
  | usable {a b : Store} (h : a.SameButIds b) : SameButIds (usable a) (usable b)
  | poisoned : SameButIds poisoned poisoned

inductive SaveOutcome.SameButIds : SaveOutcome → SaveOutcome → Prop where
  | saved {a b : Store.Assigned} {s t : Store} (hassigned : a.SameButIds b)
      (hstore : s.SameButIds t) : SameButIds (.saved a s) (.saved b t)
  | refused (cause : StoreError) {s t : Option Store} (hstore : Option.Rel Store.SameButIds s t) :
      SameButIds (.refused ⟨cause, s⟩) (.refused ⟨cause, t⟩)
  | brokenOff {a b : Store.Assigned} (hassigned : a.SameButIds b) :
      SameButIds (.brokenOff a) (.brokenOff b)

namespace OdrlPolicy

theorem sameButIds_refl (p : OdrlPolicy) : p.SameButIds p where
  rest := rfl
  rules _ := List.forall₂_same.mpr fun _ _ => rfl

theorem SameButIds.set_uid {p q : OdrlPolicy} (h : p.SameButIds q) (uid : String) :
    (p.set (.uid uid)).SameButIds (q.set (.uid uid)) where
  rest := congrArg (fun policy : OdrlPolicy => policy.set (.uid uid)) h.rest
  rules partition := by
    have hrules := h.rules partition
    cases partition <;> exact hrules

end OdrlPolicy

namespace GenericPolicy

theorem sameButIds_refl (p : GenericPolicy) : p.SameButIds p where
  rest := rfl
  rules := List.forall₂_same.mpr fun _ _ => rfl

theorem SameButIds.set_id {p q : GenericPolicy} (h : p.SameButIds q) (id : Option UInt64) :
    (p.set (.id id)).SameButIds (q.set (.id id)) where
  rest := congrArg (fun policy : GenericPolicy => policy.set (.id id)) h.rest
  rules := h.rules

end GenericPolicy

namespace Policy

theorem sameButIds_refl (p : Policy) : p.SameButIds p := by
  cases p with
  | odrl p => exact .odrl p.sameButIds_refl
  | generic p => exact .generic p.sameButIds_refl

theorem SameButIds.withKey {p q : Policy} (h : p.SameButIds q) (key : PolicyKey) :
    (p.withKey key).SameButIds (q.withKey key) := by
  cases h with
  | odrl h => exact .odrl (h.set_uid key.text)
  | generic h => exact .generic (h.set_id (some key.id))

end Policy

theorem rel_getElem?_of_forall₂ {α : Type} {R : α → α → Prop} {as bs : List α}
    (h : List.Forall₂ R as bs) (index : Nat) : Option.Rel R as[index]? bs[index]? := by
  induction h generalizing index with
  | nil => exact .none
  | cons hab _ ih =>
    cases index with
    | zero => exact .some hab
    | succ index => exact ih index

namespace Store

theorem sameButIds_refl (store : Store) : store.SameButIds store where
  rest := rfl
  entries := List.forall₂_same.mpr fun entry _ => ⟨rfl, entry.policy.sameButIds_refl⟩

namespace SameButIds

variable {a b : Store} (h : a.SameButIds b) {p q : Policy} (hpolicy : p.SameButIds q)
  {keyPrefix : String} {draws : List Uuid}

include h

theorem latest_eq : a.latest = b.latest := by
  rw [h.rest]

theorem nextGenericId_eq : a.nextGenericId = b.nextGenericId := by
  rw [h.rest]

theorem size_eq : a.entries.size = b.entries.size := by
  have hlength := h.entries.length_eq
  rwa [Array.length_toList, Array.length_toList] at hlength

theorem has_eq : a.has = b.has := by
  funext key
  rw [has, h.latest_eq, ← has]

theorem rel_latest? (key : PolicyKey) :
    Option.Rel StoredPolicy.SameButIds (a.latest? key) (b.latest? key) := by
  rw [latest?, latest?, h.latest_eq]
  cases b.latest[key]? with
  | none => exact .none
  | some position =>
    have hrel := rel_getElem?_of_forall₂ h.entries position
    rwa [Array.getElem?_toList, Array.getElem?_toList] at hrel

theorem withCounter (next : Option UInt64) :
    (a.withCounter next).SameButIds (b.withCounter next) where
  rest := by
    rw [h.rest]
    rfl
  entries := h.entries

theorem append {one other : Assigned} (hassigned : one.SameButIds other) (now : Instant) :
    (a.append one now).SameButIds (b.append other now) where
  rest := by
    rw [hassigned.rest]
    simp only [Store.append, h.latest_eq, h.size_eq, h.nextGenericId_eq]
  entries := by
    rw [entries_append, entries_append]
    refine List.rel_append h.entries (.cons ⟨?_, hassigned.snapshot⟩ .nil)
    rw [hassigned.rest]

include hpolicy

theorem counterFor_eq : a.counterFor p = b.counterFor q := by
  cases hpolicy with
  | odrl => exact h.nextGenericId_eq
  | @generic p q hpolicy =>
    rw [hpolicy.rest]
    obtain ⟨id⟩ := p
    cases id <;> simp only [counterFor, h.nextGenericId_eq]

theorem conflict?_eq (key : PolicyKey) : a.conflict? p key = b.conflict? q key := by
  have hlatest := h.rel_latest? key
  unfold conflict?
  rw [hpolicy.family_eq]
  revert hlatest
  cases a.latest? key <;> cases b.latest? key <;> intro hlatest <;> cases hlatest
  · rfl
  · rename_i hentry
    simp only [hentry.policy.family_eq]

theorem assignOwn {key : PolicyKey} (hkey : p.ownKey? = some key) :
    (b.assignOwn q key draws).1 = (a.assignOwn p key draws).1.map (fun assigned =>
        { assigned with snapshot := q.withKey assigned.key }) ∧
      (a.assignOwn p key draws).2.SameButIds (b.assignOwn q key draws).2 := by
  have hown : q.withKey key = q := Policy.withKey_ownKey (hpolicy.ownKey?_eq ▸ hkey)
  unfold Store.assignOwn
  rw [h.conflict?_eq hpolicy, h.counterFor_eq hpolicy]
  cases b.conflict? q key with
  | some cause => exact ⟨rfl, h⟩
  | none =>
    refine ⟨?_, h.withCounter _⟩
    simp [Except.map, hown]

theorem assign : (b.assign keyPrefix q draws).1 =
      (a.assign keyPrefix p draws).1.map (fun assigned =>
        { assigned with snapshot := q.withKey assigned.key }) ∧
    (a.assign keyPrefix p draws).2.SameButIds (b.assign keyPrefix q draws).2 := by
  unfold Store.assign
  rw [← hpolicy.ownKey?_eq]
  cases hkey : p.ownKey? with
  | some key => exact h.assignOwn hpolicy hkey
  | none =>
    cases hpolicy with
    | odrl =>
      simp only [assignGenerated, freeDraw?_congr h.has_eq]
      cases b.freeDraw? keyPrefix draws with
      | none => exact ⟨rfl, h⟩
      | some found => exact ⟨rfl, h⟩
    | generic =>
      simp only [assignGenerated, takeId, freeId?_congr h.has_eq h.nextGenericId_eq]
      cases b.freeId? with
      | none => exact ⟨rfl, h⟩
      | some id =>
        refine ⟨?_, h.withCounter _⟩
        simp [Except.map, Policy.withKey]

end SameButIds

end Store

namespace SharedStore

variable {a b : SharedStore} {p q : Policy}

theorem sameButIds_refl (shared : SharedStore) : shared.SameButIds shared := by
  cases shared with
  | usable store => exact .usable store.sameButIds_refl
  | poisoned => exact .poisoned

theorem SameButIds.save (h : a.SameButIds b) (hpolicy : p.SameButIds q) (keyPrefix : String)
    (now? : Option Instant) (draws : List Uuid) :
    (a.save keyPrefix p now? draws).SameButIds (b.save keyPrefix q now? draws) := by
  cases h with
  | poisoned => exact .refused _ .none
  | @usable s t h =>
    obtain ⟨houtcome, hafter⟩ := h.assign hpolicy
    simp only [SharedStore.save, get]
    cases hs : s.assign keyPrefix p draws with
    | mk outcome after =>
      cases ht : t.assign keyPrefix q draws with
      | mk other afterOther =>
        rw [hs, ht] at houtcome hafter
        cases houtcome
        cases outcome with
        | error cause => exact .refused cause (.some hafter)
        | ok assigned =>
          obtain ⟨next, hassigns, -⟩ := Store.assigns_of_assign hs
          have hassigned : assigned.SameButIds
              { assigned with snapshot := q.withKey assigned.key } := by
            refine ⟨rfl, ?_⟩
            rw [Store.snapshot_of_assigns hassigns]
            exact hpolicy.withKey assigned.key
          cases now? with
          | none => exact .brokenOff hassigned
          | some now => exact .saved hassigned (hafter.append hassigned now)

inductive Call.SameButIds : Call → Call → Prop where
  | save (keyPrefix : String) {p q : Policy} (h : p.SameButIds q) (now? : Option Instant)
      (draws : List Uuid) :
      SameButIds (.save keyPrefix p now? draws) (.save keyPrefix q now? draws)
  | load (key : PolicyKey) : SameButIds (.load key) (.load key)
  | list (limit : Option Nat) : SameButIds (.list limit) (.list limit)
  | size : SameButIds .size .size

inductive Answer.SameButIds : Answer → Answer → Prop where
  | saved (key : PolicyKey) : SameButIds (.saved key) (.saved key)
  | found {p q : Policy} (h : p.SameButIds q) : SameButIds (.found p) (.found q)
  | listed {entries others : List StoredPolicy}
      (h : List.Forall₂ StoredPolicy.SameButIds entries others) :
      SameButIds (.listed entries) (.listed others)
  | counted (n : Nat) : SameButIds (.counted n) (.counted n)
  | refused (cause : StoreError) : SameButIds (.refused cause) (.refused cause)
  | brokenOff : SameButIds .brokenOff .brokenOff

theorem SameButIds.look {view : Store → Answer} (h : a.SameButIds b)
    (hview : ∀ s t : Store, s.SameButIds t → (view s).SameButIds (view t)) :
    (a.look view).SameButIds (b.look view) := by
  cases h with
  | usable h => exact hview _ _ h
  | poisoned => exact .refused _

theorem SameButIds.after {one other : SaveOutcome} (h : a.SameButIds b)
    (houtcome : one.SameButIds other) :
    (Answer.ofSave one).SameButIds (Answer.ofSave other) ∧
      (a.after one).SameButIds (b.after other) := by
  cases houtcome with
  | saved hassigned hstore =>
    rw [hassigned.rest]
    exact ⟨.saved _, .usable hstore⟩
  | refused cause hstore =>
    cases hstore with
    | none => exact ⟨.refused cause, h⟩
    | some hstore => exact ⟨.refused cause, .usable hstore⟩
  | brokenOff => exact ⟨.brokenOff, .poisoned⟩

theorem answer_load {s t : Store} (h : s.SameButIds t) (key : PolicyKey) :
    (Answer.ofLoad (s.load key)).SameButIds (.ofLoad (t.load key)) := by
  have hlatest := h.rel_latest? key
  unfold Store.load
  revert hlatest
  cases s.latest? key <;> cases t.latest? key <;> intro hlatest <;> cases hlatest
  · exact .refused _
  · rename_i hentry
    exact .found hentry.policy

theorem answer_list {s t : Store} (h : s.SameButIds t) (limit : Option Nat) :
    (Answer.listed (s.list limit)).SameButIds (.listed (t.list limit)) := by
  cases limit with
  | none => exact .listed h.entries
  | some n =>
    rw [Store.list, Store.list, h.size_eq]
    exact .listed (List.forall₂_drop _ h.entries)

theorem SameButIds.call {one other : Call} (h : a.SameButIds b) (hcall : one.SameButIds other) :
    (a.call one).1.SameButIds (b.call other).1 ∧ (a.call one).2.SameButIds (b.call other).2 := by
  cases hcall with
  | save keyPrefix hpolicy now? draws => exact h.after (h.save hpolicy keyPrefix now? draws)
  | load key => exact ⟨h.look fun _ _ hstore => answer_load hstore key, h⟩
  | list limit => exact ⟨h.look fun _ _ hstore => answer_list hstore limit, h⟩
  | size =>
    refine ⟨h.look ?_, h⟩
    intro s t hstore
    rw [Store.size, Store.size, hstore.size_eq]
    exact .counted _

theorem SameButIds.run {calls others : List Call} (h : a.SameButIds b)
    (hcalls : List.Forall₂ Call.SameButIds calls others) :
    List.Forall₂ Answer.SameButIds (a.answers calls) (b.answers others) ∧
      (a.run calls).2.SameButIds (b.run others).2 := by
  induction hcalls generalizing a b with
  | nil => exact ⟨.nil, h⟩
  | cons hcall _ ih =>
    obtain ⟨hanswer, hafter⟩ := h.call hcall
    obtain ⟨hanswers, hlast⟩ := ih hafter
    exact ⟨.cons hanswer hanswers, hlast⟩

end SharedStore

theorem Policy.rule_ids_never_leak :
    (∀ p q : Policy, p.SameButIds q →
      p.violations = q.violations ∧
      (∀ config, p.toDocument config = q.toDocument config ∧
        ∀ pretty, (p.toDocument config).render pretty = (q.toDocument config).render pretty) ∧
      p.ownKey? = q.ownKey? ∧
      ∀ (shared : SharedStore) keyPrefix now? draws,
        (shared.save keyPrefix p now? draws).SameButIds (shared.save keyPrefix q now? draws)) ∧
    (∀ (shared : SharedStore) calls others,
      List.Forall₂ SharedStore.Call.SameButIds calls others →
        List.Forall₂ SharedStore.Answer.SameButIds (shared.answers calls)
          (shared.answers others) ∧
        (shared.run calls).2.SameButIds (shared.run others).2) ∧
    ∀ (p q : Policy) config, config.defaultProfile = none →
      p.toDocument config = q.toDocument config → p.SameButIds q := by
  refine ⟨?_, ?_, ?_⟩
  · intro p q h
    refine ⟨h.violations_eq, ?_, h.ownKey?_eq, ?_⟩
    · intro config
      have hdocument := h.toDocument_eq config
      exact ⟨hdocument, fun pretty => by rw [hdocument]⟩
    · intro shared keyPrefix now? draws
      exact shared.sameButIds_refl.save h keyPrefix now? draws
  · intro shared calls others hcalls
    exact shared.sameButIds_refl.run hcalls
  · intro p q config hprofile hdocument
    exact sameButIds_of_toDocument_eq hprofile hdocument

def Policy.offerNumbered (id : UInt64) : Policy :=
  .odrl { OdrlPolicy.new .offer with
    permission := [⟨⟨id⟩, some .use, none, []⟩]
    nextRuleId := RuleId.next ⟨id⟩ }

theorem Policy.rule_ids_never_leak_of_offer :
    let p := offerNumbered 1
    let q := offerNumbered 7
    let start : SharedStore := .usable .empty
    let handle (policy : Policy) : SharedStore.Call :=
      .save "urn:uuid:" policy (some ⟨0, 0⟩) [.ofRandom 0 0]
    p ≠ q ∧ p.violations = q.violations ∧ p.toDocument default = q.toDocument default ∧
      p.ownKey? = q.ownKey? ∧
      (start.save "urn:uuid:" p (some ⟨0, 0⟩) [.ofRandom 0 0]).SameButIds
        (start.save "urn:uuid:" q (some ⟨0, 0⟩) [.ofRandom 0 0]) ∧
      List.Forall₂ SharedStore.Answer.SameButIds (start.answers [handle p, .list none])
        (start.answers [handle q, .list none]) ∧
      p.SameButIds q := by
  intro p q start handle
  have hsame : p.SameButIds q := by
    refine .odrl ⟨rfl, ?_⟩
    intro partition
    cases partition with
    | permission => exact .cons rfl .nil
    | prohibition => exact .nil
    | obligation => exact .nil
  obtain ⟨hpolicies, hruns, hconverse⟩ := rule_ids_never_leak
  obtain ⟨hviolations, hdocuments, hkeys, hsaves⟩ := hpolicies p q hsame
  refine ⟨by decide, hviolations, (hdocuments default).1, hkeys, hsaves _ _ _ _, ?_, ?_⟩
  · have hcalls : List.Forall₂ SharedStore.Call.SameButIds [handle p, .list none]
        [handle q, .list none] := .cons (.save _ hsame _ _) (.cons (.list none) .nil)
    exact (hruns start _ _ hcalls).1
  · exact hconverse p q default rfl rfl

end RightsPolicy
