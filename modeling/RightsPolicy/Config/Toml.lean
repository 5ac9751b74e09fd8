import RightsPolicy.Config.Basic
import RightsPolicy.Toml.Document

namespace RightsPolicy

namespace Toml

/-- Whether the value can stand for a section. A moment is taken for a section without members. -/
def isSection : Toml → Bool
  | .array _ => true
  | .table _ _ => true
  | .tables _ _ => true
  | .moment => true
  | _ => false

def member? (value : Toml) (name : String) (place : Nat) : Option Toml :=
  match value with
  | .table _ members => lookup? name members
  | .array items => items[place]?
  | .tables earlier last => (earlier ++ [.table .header last])[place]?
  | _ => none

def readMember {α : Type} (value : Toml) (name : String) (place : Nat) (read : Toml → Option α)
    (ifAbsent : α) : Option α :=
  match value.member? name place with
  | some member => read member
  | none => some ifAbsent

end Toml

def Log.Level.ofToml? : Toml → Option Log.Level
  | .text name => ofTerm? name
  | .table _ [(name, value)] => if value.isEmptyContainer then ofTerm? name else none
  | _ => none

def CanonicalConfig.ofToml? (value : Toml) : Option CanonicalConfig := do
  guard value.isSection
  let config : CanonicalConfig := default
  let odrlContext ← value.readMember "odrl_context" 0 Toml.text? config.odrlContext
  let defaultProfile ← value.readMember "default_profile" 1 (fun x => x.text?.map some)
    config.defaultProfile
  let pretty ← value.readMember "pretty" 2 Toml.flag? config.pretty
  some ⟨odrlContext, defaultProfile, pretty⟩

def StoreConfig.ofToml? (value : Toml) : Option StoreConfig := do
  guard value.isSection
  let config : StoreConfig := default
  let keyPrefix ← value.readMember "key_prefix" 0 Toml.text? config.keyPrefix
  some ⟨keyPrefix⟩

def LoggingConfig.ofToml? (value : Toml) : Option LoggingConfig := do
  guard value.isSection
  let config : LoggingConfig := default
  let level ← value.readMember "level" 0 Log.Level.ofToml? config.level
  some ⟨level⟩

namespace Config

def ofToml? (value : Toml) : Option Config := do
  let canonical ← value.readMember "canonical" 0 CanonicalConfig.ofToml? default
  let store ← value.readMember "store" 1 StoreConfig.ofToml? default
  let logging ← value.readMember "logging" 2 LoggingConfig.ofToml? default
  some ⟨canonical, store, logging⟩

def ofText (s : String) : Except ConfigError Config :=
  match (Toml.ofText? s).bind ofToml? with
  | none => .error (.parseFailed "the text is no configuration in TOML")
  | some config => config.validate.map fun _ => config

end Config

end RightsPolicy
