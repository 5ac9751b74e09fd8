import RightsPolicy.Config.Toml
import RightsPolicy.FileFault

namespace RightsPolicy.Config

structure Source where
  path : String
  content : Except FileFault String

def loadTarget : String := "covenant_core::utils::config"

def load (source? : Option Source) : Logged (Except ConfigError Config) :=
  match source? with
  | none =>
    ⟨.ok default, [⟨.info, loadTarget, "No configuration file specified, using defaults"⟩]⟩
  | some source =>
    let loading : Log.Record := ⟨.info, loadTarget, "Loading configuration from " ++ source.path⟩
    match source.content with
    | .ok text => ⟨ofText text, [loading]⟩
    | .error fault =>
      if fault.isMissing then
        ⟨.ok default,
          [loading, ⟨.warning, loadTarget, "Configuration file not found: " ++ source.path⟩]⟩
      else
        ⟨.error (.loadFailed (source.path ++ ": " ++ fault.message)), [loading]⟩

end RightsPolicy.Config
