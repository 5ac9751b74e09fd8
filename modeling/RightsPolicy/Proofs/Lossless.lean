import RightsPolicy.Config.Codec
import RightsPolicy.Proofs.Document.Text

namespace RightsPolicy

variable {depth : Nat}

def Codec.IsLossless {α : Type} (codec : Codec α) : Prop :=
  ∀ (layout : Json.Layout) (a : α), codec.ofText (codec.toText layout a) = .ok a

theorem Codec.isLossless_of_restores {α : Type} {codec : Codec α}
    (h : ∀ a, codec.Restores depth a) (hdepth : depth ≤ Json.Frame.depthLimit) :
    codec.IsLossless := by
  intro layout a
  have hparse := Json.ofText_render (h a).plain hdepth layout
  simp only [ofText, toText, hparse, (h a).read_write]
  rfl

theorem RuleId.restores (id : RuleId) : codec.Restores depth id := by
  have hvalue := @Codec.restores_word64 depth id.value
  refine ⟨hvalue.plain, ?_⟩
  simp only [codec, hvalue.read_write]
  rfl

theorem PolicyKey.restores (key : PolicyKey) : codec.Restores depth key :=
  ⟨.text key.text, rfl⟩

theorem Constraint.restores (constraint : Constraint) :
    codec.Restores (depth + 1) constraint := by
  have hnames : ["left_operand", "operator", "right_operand"].Nodup := by decide
  refine Shape.restores_codec hnames rfl ⟨?_, ?_, ?_, trivial⟩
  · exact Codec.restores_option_term _
  · exact Codec.restores_option_term _
  · exact Codec.restores_text _

theorem OdrlRule.restores (rule : OdrlRule) : codec.Restores (depth + 3) rule := by
  have hnames : ["id", "action", "target", "constraints"].Nodup := by decide
  refine Shape.restores_codec hnames rfl ⟨?_, ?_, ?_, ?_, trivial⟩
  · exact RuleId.restores _
  · exact Codec.restores_option_term _
  · exact Codec.restores_option_text _
  · exact Codec.restores_list fun constraint _ => constraint.restores

theorem GenericRule.restores (rule : GenericRule) : codec.Restores (depth + 1) rule := by
  have hnames : ["id", "rule_type", "operator", "value", "description"].Nodup := by decide
  refine Shape.restores_codec hnames rfl ⟨?_, ?_, ?_, ?_, ?_, trivial⟩
  · exact RuleId.restores _
  · exact Codec.restores_option_term _
  · exact Codec.restores_option_term _
  · exact Codec.restores_text _
  · exact Codec.restores_text _

theorem Log.Level.ofTerm?_term (level : Level) : ofTerm? level.term = some level := by
  cases level <;> decide

theorem Log.Level.restores (level : Level) : codec.Restores depth level := by
  refine ⟨.text _, ?_⟩
  simp only [codec, Option.bind_some, ofTerm?_term]

theorem CanonicalConfig.restores (config : CanonicalConfig) :
    codec.Restores (depth + 1) config := by
  have hnames : ["odrl_context", "default_profile", "pretty"].Nodup := by decide
  refine Shape.restores_codec hnames rfl ⟨?_, ?_, ?_, trivial⟩
  · exact Codec.restores_text _
  · exact Codec.restores_option_text _
  · exact Codec.restores_flag _

theorem StoreConfig.restores (config : StoreConfig) : codec.Restores (depth + 1) config := by
  have hnames : ["key_prefix"].Nodup := by decide
  exact Shape.restores_codec hnames rfl ⟨Codec.restores_text _, trivial⟩

theorem LoggingConfig.restores (config : LoggingConfig) : codec.Restores (depth + 1) config := by
  have hnames : ["level"].Nodup := by decide
  exact Shape.restores_codec hnames rfl ⟨Log.Level.restores _, trivial⟩

theorem Config.restores (config : Config) : codec.Restores (depth + 2) config := by
  have hnames : ["canonical", "store", "logging"].Nodup := by decide
  refine Shape.restores_codec hnames rfl ⟨?_, ?_, ?_, trivial⟩
  · exact config.canonical.restores
  · exact config.store.restores
  · exact config.logging.restores

theorem values_lossless :
    Constraint.codec.IsLossless ∧ OdrlRule.codec.IsLossless ∧ GenericRule.codec.IsLossless ∧
      Notifications.codec.IsLossless ∧ RuleId.codec.IsLossless ∧ PolicyKey.codec.IsLossless ∧
      Config.codec.IsLossless := by
  refine ⟨?_, ?_, ?_, ?_, ?_, ?_, ?_⟩
  · exact Codec.isLossless_of_restores (@Constraint.restores 0) (by decide)
  · exact Codec.isLossless_of_restores (@OdrlRule.restores 0) (by decide)
  · exact Codec.isLossless_of_restores (@GenericRule.restores 0) (by decide)
  · exact Codec.isLossless_of_restores (@Notifications.restores 0) (by decide)
  · exact Codec.isLossless_of_restores (@RuleId.restores 0) (by decide)
  · exact Codec.isLossless_of_restores (@PolicyKey.restores 0) (by decide)
  · exact Codec.isLossless_of_restores (@Config.restores 0) (by decide)

end RightsPolicy
