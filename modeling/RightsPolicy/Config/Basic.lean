import RightsPolicy.Log
import RightsPolicy.Text.Blank

namespace RightsPolicy

structure CanonicalConfig where
  odrlContext : String
  defaultProfile : Option String
  pretty : Bool
  deriving DecidableEq, Repr

instance : Inhabited CanonicalConfig where
  default := ⟨"http://www.w3.org/ns/odrl.jsonld", none, true⟩

structure StoreConfig where
  keyPrefix : String
  deriving DecidableEq, Repr

instance : Inhabited StoreConfig where
  default := ⟨"urn:uuid:"⟩

structure LoggingConfig where
  level : Log.Level
  deriving DecidableEq, Repr

instance : Inhabited LoggingConfig where
  default := ⟨default⟩

structure Config where
  canonical : CanonicalConfig
  store : StoreConfig
  logging : LoggingConfig
  deriving DecidableEq, Repr

instance : Inhabited Config where
  default := ⟨default, default, default⟩

structure ConfigOverrides where
  logLevel : Option Log.Level
  pretty : Option Bool
  defaultProfile : Option String
  deriving DecidableEq, Repr

namespace Config

def merge (config : Config) (overrides : ConfigOverrides) : Config where
  canonical :=
    { config.canonical with
      pretty := overrides.pretty.getD config.canonical.pretty
      defaultProfile := overrides.defaultProfile <|> config.canonical.defaultProfile }
  store := config.store
  logging := ⟨overrides.logLevel.getD config.logging.level⟩

def validate (config : Config) : Except ConfigError Unit :=
  if Text.isBlank config.canonical.odrlContext then
    .error (.invalid "canonical.odrl_context cannot be empty")
  else if Text.isBlank config.store.keyPrefix then
    .error (.invalid "store.key_prefix cannot be empty")
  else if config.canonical.defaultProfile.any Text.isBlank then
    .error (.invalid "canonical.default_profile cannot be blank when set")
  else
    .ok ()

end Config

end RightsPolicy
