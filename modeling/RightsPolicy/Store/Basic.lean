import Std.Data.HashMap
import RightsPolicy.Policy.Basic
import RightsPolicy.Store.Id

namespace RightsPolicy

structure StoredPolicy where
  key : PolicyKey
  policy : Policy
  savedAt : Instant
  deriving DecidableEq

structure Store where
  entries : Array StoredPolicy
  latest : Std.HashMap PolicyKey Nat
  nextGenericId : Option UInt64

namespace Store

def empty : Store :=
  ⟨#[], ∅, some 1⟩

def has (store : Store) (key : PolicyKey) : Bool :=
  store.latest.contains key

def latest? (store : Store) (key : PolicyKey) : Option StoredPolicy :=
  store.latest[key]?.bind fun position => store.entries[position]?

structure Assigned where
  key : PolicyKey
  snapshot : Policy
  isGenerated : Bool
  draws : List Uuid

def counterAfter (next : Option UInt64) (id : UInt64) : Option UInt64 :=
  match next, successor? id with
  | some next, some after => some (max next after)
  | _, _ => none

def counterFor (store : Store) : Policy → Option UInt64
  | .generic { id := some id, .. } => counterAfter store.nextGenericId id
  | _ => store.nextGenericId

def withCounter (store : Store) (next : Option UInt64) : Store :=
  { store with nextGenericId := next }

section Counter

variable (store : Store) (next : Option UInt64)

@[simp]
theorem entries_withCounter : (store.withCounter next).entries = store.entries :=
  rfl

@[simp]
theorem nextGenericId_withCounter : (store.withCounter next).nextGenericId = next :=
  rfl

@[simp]
theorem has_withCounter : (store.withCounter next).has = store.has :=
  rfl

@[simp]
theorem latest?_withCounter : (store.withCounter next).latest? = store.latest? :=
  rfl

end Counter

def freeDraw? (store : Store) (keyPrefix : String) : List Uuid → Option (PolicyKey × List Uuid)
  | [] => none
  | uuid :: rest =>
    let key := PolicyKey.generated keyPrefix uuid
    if store.has key then store.freeDraw? keyPrefix rest else some (key, rest)

def freeId? (store : Store) : Option UInt64 :=
  store.nextGenericId.bind (leastFree? fun id => store.has (PolicyKey.ofId id))

def conflict? (store : Store) (policy : Policy) (key : PolicyKey) : Option StoreError :=
  match store.latest? key with
  | some entry =>
    if entry.policy.family = policy.family then none
    else some (.keyConflict key (Vocabulary.term entry.policy.family))
  | none => none

def assignOwn (store : Store) (policy : Policy) (key : PolicyKey) (draws : List Uuid) :
    Except StoreError Assigned × Store :=
  match store.conflict? policy key with
  | some cause => (.error cause, store)
  | none => (.ok ⟨key, policy, false, draws⟩, store.withCounter (store.counterFor policy))

def takeId (store : Store) : Except StoreError UInt64 × Store :=
  match store.freeId? with
  | some id => (.ok id, store.withCounter (successor? id))
  | none => (.error .idsExhausted, store)

def assignGenerated (store : Store) (keyPrefix : String) (draws : List Uuid) :
    Policy → Except StoreError Assigned × Store
  | .odrl policy =>
    match store.freeDraw? keyPrefix draws with
    | some (key, rest) => (.ok ⟨key, .odrl (policy.set (.uid key.text)), true, rest⟩, store)
    | none => (.error .drawsExhausted, store)
  | .generic policy =>
    match store.takeId with
    | (.ok id, after) =>
      (.ok ⟨PolicyKey.ofId id, .generic (policy.set (.id (some id))), true, draws⟩, after)
    | (.error cause, after) => (.error cause, after)

/-- Find a key for the policy. As with every step of a save, the store that it leaves is told also
when it fails. -/
def assign (store : Store) (keyPrefix : String) (policy : Policy) (draws : List Uuid) :
    Except StoreError Assigned × Store :=
  match policy.ownKey? with
  | some key => store.assignOwn policy key draws
  | none => store.assignGenerated keyPrefix draws policy

def append (store : Store) (assigned : Assigned) (now : Instant) : Store :=
  { store with
    entries := store.entries.push ⟨assigned.key, assigned.snapshot, now⟩
    latest := store.latest.insert assigned.key store.entries.size }

def save (store : Store) (keyPrefix : String) (policy : Policy) (now : Instant)
    (draws : List Uuid) : Except StoreError Assigned × Store :=
  match store.assign keyPrefix policy draws with
  | (.ok assigned, after) => (.ok assigned, after.append assigned now)
  | (.error cause, after) => (.error cause, after)

def load (store : Store) (key : PolicyKey) : Except StoreError Policy :=
  match store.latest? key with
  | some entry => .ok entry.policy
  | none => .error (.notFound key)

def list (store : Store) (limit : Option Nat) : List StoredPolicy :=
  match limit with
  | some n => store.entries.toList.drop (store.entries.size - n)
  | none => store.entries.toList

def size (store : Store) : Nat :=
  store.entries.size

end Store

end RightsPolicy
