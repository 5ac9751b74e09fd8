import RightsPolicy.Identifier
import RightsPolicy.Vocabulary.Basic

namespace RightsPolicy

inductive PolicyError where
  | ruleNotFound (rule : RuleId)
  | constraintNotFound (rule : RuleId) (index : Nat)
  | unknownTerm (unknown : UnknownTerm)
  | invalid (violations : List String)
  deriving DecidableEq, Repr

def PolicyError.message : PolicyError → String
  | .ruleNotFound rule => "Rule not found: " ++ rule.text
  | .constraintNotFound rule index =>
    "Constraint " ++ Nat.repr index ++ " not found on rule " ++ rule.text
  | .unknownTerm unknown => unknown.message
  | .invalid violations => "Policy has " ++ Nat.repr violations.length ++ " violation(s)"

inductive StoreError where
  | notFound (key : PolicyKey)
  | keyConflict (key : PolicyKey) (existing : String)
  | idsExhausted
  /-- Every random identifier that was drawn gives a key in use. -/
  | drawsExhausted
  | lockPoisoned (detail : String)
  deriving DecidableEq, Repr

def StoreError.message : StoreError → String
  | .notFound key => "Policy not found: " ++ key.text
  | .keyConflict key existing =>
    "Key " ++ key.text ++ " is held by a policy of family '" ++ existing ++ "'"
  | .idsExhausted => "No generic policy ids left"
  | .drawsExhausted => "No random policy identifiers left"
  | .lockPoisoned detail => "Store lock poisoned: " ++ detail

inductive ConfigError where
  | loadFailed (detail : String)
  | parseFailed (detail : String)
  | invalid (detail : String)
  deriving DecidableEq, Repr

def ConfigError.message : ConfigError → String
  | .loadFailed detail => "Failed to load configuration: " ++ detail
  | .parseFailed detail => "Failed to parse configuration: " ++ detail
  | .invalid detail => "Invalid configuration: " ++ detail

inductive Error where
  | policy (cause : PolicyError)
  | store (cause : StoreError)
  | config (cause : ConfigError)
  | io (detail : String)
  | serialization (detail : String)
  deriving DecidableEq, Repr

namespace Error

def message : Error → String
  | .policy cause => "Policy error: " ++ cause.message
  | .store cause => "Store error: " ++ cause.message
  | .config cause => "Configuration error: " ++ cause.message
  | .io detail => "I/O error: " ++ detail
  | .serialization detail => "Serialization error: " ++ detail

def source? : Error → Option String
  | .policy cause => some cause.message
  | .store cause => some cause.message
  | .config cause => some cause.message
  | .io detail => some detail
  | .serialization _ => none

def chain (e : Error) : List String :=
  e.message :: e.source?.toList

end Error

end RightsPolicy
