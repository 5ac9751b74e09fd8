import RightsPolicy.Document.Codec
import RightsPolicy.Document.Export
import RightsPolicy.Document.Import
import RightsPolicy.Store.Shared
import RightsPolicy.Validation

namespace RightsPolicy.Journal

def validate (policy : Policy) : Logged (List Violation) :=
  let violations := policy.violations
  ⟨violations,
    [⟨.trace, "covenant_policy::engine::validator",
      "Validated " ++ Vocabulary.term policy.family ++ " policy: " ++
        Nat.repr violations.length ++ " violation(s)"⟩]⟩

def ensureValid (policy : Policy) : Logged (Except PolicyError Unit) :=
  (validate policy).map fun _ => policy.ensureValid

def canonicalize (policy : Policy) (config : CanonicalConfig) : Logged PolicyDocument :=
  ⟨policy.toDocument config,
    [⟨.trace, "covenant_policy::canonical", "Canonicalizing " ++ policy.text⟩]⟩

def toPolicy (document : PolicyDocument) : Logged (Except PolicyError Policy) :=
  match document.toPolicy with
  | .ok policy =>
    ⟨.ok policy, [⟨.debug, "covenant_policy::canonical::import", "Imported " ++ policy.text⟩]⟩
  | .error unknown => ⟨.error (.unknownTerm unknown), []⟩

def storeTarget : String := "covenant_policy::store::in_memory"

def generatedRecords (assigned : Store.Assigned) : List Log.Record :=
  if assigned.isGenerated then
    [⟨.debug, storeTarget,
      "Generated key " ++ assigned.key.text ++ " for " ++
        Vocabulary.term assigned.snapshot.family ++ " policy"⟩]
  else
    []

def savedRecord (store : Store) (assigned : Store.Assigned) : Log.Record :=
  .event .debug storeTarget "Policy saved"
    [("key", assigned.key.text),
      ("revision", if store.has assigned.key then "true" else "false"),
      ("entries", Nat.repr (store.size + 1))]

def saveInto (store : Store) (keyPrefix : String) (policy : Policy) (now : Instant)
    (draws : List Uuid) : Logged (Except StoreError Store.Assigned × Store) :=
  match store.save keyPrefix policy now draws with
  | (.ok assigned, after) =>
    ⟨(.ok assigned, after), generatedRecords assigned ++ [savedRecord store assigned]⟩
  | (.error cause, after) => ⟨(.error cause, after), []⟩

def save (shared : SharedStore) (keyPrefix : String) (policy : Policy) (now? : Option Instant)
    (draws : List Uuid) : Logged SaveOutcome :=
  let outcome := shared.save keyPrefix policy now? draws
  match shared, outcome with
  | .usable store, .saved assigned _ =>
    ⟨outcome, generatedRecords assigned ++ [savedRecord store assigned]⟩
  | _, .brokenOff assigned => ⟨outcome, generatedRecords assigned⟩
  | _, _ => ⟨outcome, []⟩

end RightsPolicy.Journal
