import RightsPolicy.Config.Basic
import RightsPolicy.Json.Shape

namespace RightsPolicy

namespace Log.Level

def codec : Codec Level where
  write level := .text level.term
  read value :=
    let name? : Option String :=
      match value with
      | .text name => some name
      | .object [(name, .null)] => some name
      | _ => none
    match name?.bind ofTerm? with
    | some level => .ok level
    | none => .error value.unexpected

end Log.Level

namespace CanonicalConfig

def codec : Codec CanonicalConfig :=
  Shape.codec
    (.cons (.withDefault "odrl_context" .text (default : CanonicalConfig).odrlContext)
      (.cons (.withDefault "default_profile" (.option .text) none)
        (.cons (.withDefault "pretty" .flag (default : CanonicalConfig).pretty) .nil)))
    (fun config => (config.odrlContext, config.defaultProfile, config.pretty, ()))
    (fun (odrlContext, defaultProfile, pretty, ()) => ⟨odrlContext, defaultProfile, pretty⟩)

end CanonicalConfig

namespace StoreConfig

def codec : Codec StoreConfig :=
  Shape.codec
    (.cons (.withDefault "key_prefix" .text (default : StoreConfig).keyPrefix) .nil)
    (fun config => (config.keyPrefix, ()))
    (fun (keyPrefix, ()) => ⟨keyPrefix⟩)

end StoreConfig

namespace LoggingConfig

def codec : Codec LoggingConfig :=
  Shape.codec
    (.cons (.withDefault "level" Log.Level.codec default) .nil)
    (fun config => (config.level, ()))
    (fun (level, ()) => ⟨level⟩)

end LoggingConfig

namespace Config

def codec : Codec Config :=
  Shape.codec
    (.cons (.withDefault "canonical" CanonicalConfig.codec default)
      (.cons (.withDefault "store" StoreConfig.codec default)
        (.cons (.withDefault "logging" LoggingConfig.codec default) .nil)))
    (fun config => (config.canonical, config.store, config.logging, ()))
    (fun (canonical, store, logging, ()) => ⟨canonical, store, logging⟩)

end Config

end RightsPolicy
