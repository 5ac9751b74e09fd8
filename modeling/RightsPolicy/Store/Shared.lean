import RightsPolicy.Store.Basic

namespace RightsPolicy

inductive SharedStore where
  | usable (store : Store)
  | poisoned

/-- A refused save with the store that it leaves; none when the store was not to be had. -/
structure Refusal where
  cause : StoreError
  store : Option Store

instance : Coe Refusal StoreError :=
  ⟨Refusal.cause⟩

inductive SaveOutcome where
  | saved (assigned : Store.Assigned) (store : Store)
  | refused (refusal : Refusal)
  | brokenOff (assigned : Store.Assigned)

namespace SharedStore

def get : SharedStore → Except StoreError Store
  | .usable store => .ok store
  | .poisoned => .error (.lockPoisoned "a save broke off while it held the store")

def save (shared : SharedStore) (keyPrefix : String) (policy : Policy) (now? : Option Instant)
    (draws : List Uuid) : SaveOutcome :=
  match shared.get with
  | .error cause => .refused ⟨cause, none⟩
  | .ok store =>
    match store.assign keyPrefix policy draws with
    | (.error cause, after) => .refused ⟨cause, some after⟩
    | (.ok assigned, after) =>
      match now? with
      | some now => .saved assigned (after.append assigned now)
      | none => .brokenOff assigned

def after (shared : SharedStore) : SaveOutcome → SharedStore
  | .saved _ store => .usable store
  | .refused ⟨_, some store⟩ => .usable store
  | .refused ⟨_, none⟩ => shared
  | .brokenOff _ => .poisoned

end SharedStore

end RightsPolicy
