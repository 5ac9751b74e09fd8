import RightsPolicy.Document.Codec
import RightsPolicy.Proofs.Json.Record

namespace RightsPolicy

variable {depth : Nat}

theorem ConstraintDocument.restores (constraint : ConstraintDocument) :
    codec.Restores (depth + 1) constraint := by
  have hnames : ["leftOperand", "operator", "rightOperand"].Nodup := by decide
  refine Shape.restores_codec hnames rfl ⟨?_, ?_, ?_, trivial⟩
  · exact Codec.restores_text _
  · exact Codec.restores_text _
  · exact Codec.restores_scalar _

theorem RuleDocument.restores (rule : RuleDocument) : codec.Restores (depth + 3) rule := by
  have hnames : ["action", "target", "constraint"].Nodup := by decide
  refine Shape.restores_codec hnames rfl ⟨?_, ?_, ?_, trivial⟩
  · exact Codec.restores_text _
  · exact Member.restores_optional_text _
  · exact Member.restores_listOf fun constraint _ => constraint.restores

theorem OdrlDocument.restores (document : OdrlDocument) : codec.Restores (depth + 5) document := by
  have hnames : ["@context", "@type", "uid", "profile", "assigner", "assignee", "target",
      "permission", "prohibition", "obligation"].Nodup := by decide
  refine Shape.restores_codec hnames rfl ⟨?_, ?_, ?_, ?_, ?_, ?_, ?_, ?_, ?_, ?_, trivial⟩
  · exact Codec.restores_text _
  · exact Codec.restores_text _
  · exact Codec.restores_text _
  · exact Member.restores_optional_text _
  · exact Member.restores_optional_text _
  · exact Member.restores_optional_text _
  · exact Codec.restores_text _
  · exact Member.restores_listOf fun rule _ => rule.restores
  · exact Member.restores_listOf fun rule _ => rule.restores
  · exact Member.restores_listOf fun rule _ => rule.restores

theorem GenericRuleDocument.restores (rule : GenericRuleDocument) :
    codec.Restores (depth + 1) rule := by
  have hnames : ["type", "operator", "value", "description"].Nodup := by decide
  refine Shape.restores_codec hnames rfl ⟨?_, ?_, ?_, ?_, trivial⟩
  · exact Codec.restores_text _
  · exact Codec.restores_text _
  · exact Codec.restores_scalar _
  · exact Codec.restores_text _

theorem Notifications.restores (notifications : Notifications) :
    codec.Restores (depth + 2) notifications := by
  have hnames : ["onViolation", "onExpiry", "recipients"].Nodup := by decide
  refine Shape.restores_codec hnames rfl ⟨?_, ?_, ?_, trivial⟩
  · exact Codec.restores_flag _
  · exact Codec.restores_flag _
  · exact Member.restores_texts _

namespace GenericDocument

structure IsWritable (document : GenericDocument) : Prop where
  validFrom : ∀ t ∈ document.validFrom, t.IsWritable
  validTo : ∀ t ∈ document.validTo, t.IsWritable

theorem restores {document : GenericDocument} (h : document.IsWritable) :
    codec.Restores (depth + 3) document := by
  have hnames : ["id", "name", "description", "kind", "status", "priority", "targetResources",
      "targetUsers", "rules", "validFrom", "validTo", "notifications", "enforcement"].Nodup := by
    decide
  refine Shape.restores_codec hnames rfl
    ⟨?_, ?_, ?_, ?_, ?_, ?_, ?_, ?_, ?_, ?_, ?_, ?_, ?_, trivial⟩
  · exact Member.restores_optional
      (Codec.restores_option fun id _ => ⟨Codec.restores_word64 id, nofun⟩)
  · exact Codec.restores_text _
  · exact Codec.restores_text _
  · exact Codec.restores_text _
  · exact Codec.restores_text _
  · exact Codec.restores_int32 _
  · exact Member.restores_texts _
  · exact Member.restores_texts _
  · exact Member.restores_listOf fun rule _ => rule.restores
  · exact Member.restores_optional_timestamp h.validFrom
  · exact Member.restores_optional_timestamp h.validTo
  · exact document.notifications.restores
  · exact Codec.restores_text _

theorem read_odrl_write (document : GenericDocument) :
    ∃ cause, OdrlDocument.codec.read (codec.write document) = .error cause := by
  have hnames : "@context" ∉ ["id", "name", "description", "kind", "status", "priority",
      "targetResources", "targetUsers", "rules", "validFrom", "validTo", "notifications",
      "enforcement"] := by
    decide
  refine Shape.read_eq_error_of_absent rfl ?_
  intro entry hentry hcontext
  have hname := Shape.mem_names_of_mem_members _ _ entry hentry
  rw [hcontext] at hname
  exact hnames hname

end GenericDocument

namespace PolicyDocument

def IsWritable : PolicyDocument → Prop
  | .odrl _ => True
  | .generic document => document.IsWritable

theorem plain_toJson {document : PolicyDocument} (h : document.IsWritable) :
    Json.Plain 5 document.toJson := by
  cases document with
  | odrl document => exact document.restores.plain
  | generic document => exact (@GenericDocument.restores 2 document h).plain

theorem ofJson?_toJson {document : PolicyDocument} (h : document.IsWritable) :
    ofJson? document.toJson = some document := by
  cases document with
  | odrl document =>
    have hread := (@OdrlDocument.restores 0 document).read_write
    simp only [ofJson?, toJson, hread]
  | generic document =>
    obtain ⟨cause, hodrl⟩ := document.read_odrl_write
    have hread := (@GenericDocument.restores 0 document h).read_write
    simp only [ofJson?, toJson, hodrl, hread]

theorem ofText_render_of_isWritable {document : PolicyDocument} (h : document.IsWritable)
    (pretty : Bool) : ofText (document.render pretty) = .ok document := by
  have hplain := plain_toJson h
  have hparse := Json.ofText_render hplain (by decide) (layoutFor pretty)
  have hreadable := hplain.isReadable
  simp only [ofText, render, hparse, hreadable, ofJson?_toJson h]
  rfl

def untilLeapSecond : GenericDocument where
  id := some 18446744073709551615
  name := "a \"b\"\u0001"
  description := ""
  kind := "Access"
  status := ""
  priority := -2147483648
  targetResources := []
  targetUsers := ["é"]
  rules := []
  validFrom := some ⟨-62198755200, 0⟩
  validTo := some ⟨1483228799, 1999999999⟩
  notifications := ⟨true, false, []⟩
  enforcement := ""

theorem ofText_render_untilLeapSecond :
    untilLeapSecond.IsWritable ∧
      ofText (render (.generic untilLeapSecond) true) = .ok (.generic untilLeapSecond) := by
  have hfrom : Instant.IsWritable ⟨-62198755200, 0⟩ := by constructor <;> decide
  have hto : Instant.IsWritable ⟨1483228799, 1999999999⟩ := by constructor <;> decide
  have hwritable : untilLeapSecond.IsWritable := by
    constructor
    · rintro t ⟨⟩
      exact hfrom
    · rintro t ⟨⟩
      exact hto
  exact ⟨hwritable, @ofText_render_of_isWritable (.generic untilLeapSecond) hwritable true⟩

end PolicyDocument

end RightsPolicy
