import RightsPolicy.Document.Codec
import RightsPolicy.Proofs.Json.Edit
import RightsPolicy.Proofs.Json.Grammar

namespace RightsPolicy

namespace ConstraintDocument

def form : Form :=
  .record [("leftOperand", .leaf), ("operator", .leaf), ("rightOperand", .scalar)]

theorem describes_codec : form.Describes codec := by
  refine .record (by decide) ?_
  refine .cons rfl (.leaf Codec.isFlat_text) ?_
  refine .cons rfl (.leaf Codec.isFlat_text) ?_
  exact .cons rfl .scalar .nil

end ConstraintDocument

namespace RuleDocument

def form : Form :=
  .record [("action", .leaf), ("target", .leaf), ("constraint", .list ConstraintDocument.form)]

theorem describes_codec : form.Describes codec := by
  refine .record (by decide) ?_
  refine .cons rfl (.leaf Codec.isFlat_text) ?_
  refine .cons rfl (.leaf Codec.isFlat_text.option) ?_
  exact .cons rfl (.list ConstraintDocument.describes_codec) .nil

end RuleDocument

namespace OdrlDocument

def form : Form :=
  .record [("@context", .leaf), ("@type", .leaf), ("uid", .leaf), ("profile", .leaf),
    ("assigner", .leaf), ("assignee", .leaf), ("target", .leaf),
    ("permission", .list RuleDocument.form), ("prohibition", .list RuleDocument.form),
    ("obligation", .list RuleDocument.form)]

theorem describes_codec : form.Describes codec := by
  refine .record (by decide) ?_
  refine .cons rfl (.leaf Codec.isFlat_text) ?_
  refine .cons rfl (.leaf Codec.isFlat_text) ?_
  refine .cons rfl (.leaf Codec.isFlat_text) ?_
  refine .cons rfl (.leaf Codec.isFlat_text.option) ?_
  refine .cons rfl (.leaf Codec.isFlat_text.option) ?_
  refine .cons rfl (.leaf Codec.isFlat_text.option) ?_
  refine .cons rfl (.leaf Codec.isFlat_text) ?_
  refine .cons rfl (.list RuleDocument.describes_codec) ?_
  refine .cons rfl (.list RuleDocument.describes_codec) ?_
  exact .cons rfl (.list RuleDocument.describes_codec) .nil

end OdrlDocument

namespace GenericRuleDocument

def form : Form :=
  .record [("type", .leaf), ("operator", .leaf), ("value", .scalar), ("description", .leaf)]

theorem describes_codec : form.Describes codec := by
  refine .record (by decide) ?_
  refine .cons rfl (.leaf Codec.isFlat_text) ?_
  refine .cons rfl (.leaf Codec.isFlat_text) ?_
  refine .cons rfl .scalar ?_
  exact .cons rfl (.leaf Codec.isFlat_text) .nil

end GenericRuleDocument

namespace Notifications

def form : Form :=
  .record [("onViolation", .leaf), ("onExpiry", .leaf), ("recipients", .list .leaf)]

theorem describes_codec : form.Describes codec := by
  refine .record (by decide) ?_
  refine .cons rfl (.leaf Codec.isFlat_flag) ?_
  refine .cons rfl (.leaf Codec.isFlat_flag) ?_
  exact .cons rfl (.list (.leaf Codec.isFlat_text)) .nil

end Notifications

namespace GenericDocument

def form : Form :=
  .record [("id", .leaf), ("name", .leaf), ("description", .leaf), ("kind", .leaf),
    ("status", .leaf), ("priority", .leaf), ("targetResources", .list .leaf),
    ("targetUsers", .list .leaf), ("rules", .list GenericRuleDocument.form), ("validFrom", .time),
    ("validTo", .time), ("notifications", Notifications.form), ("enforcement", .leaf)]

theorem describes_codec : form.Describes codec := by
  refine .record (by decide) ?_
  refine .cons rfl (.leaf Codec.isFlat_word64.option) ?_
  refine .cons rfl (.leaf Codec.isFlat_text) ?_
  refine .cons rfl (.leaf Codec.isFlat_text) ?_
  refine .cons rfl (.leaf Codec.isFlat_text) ?_
  refine .cons rfl (.leaf Codec.isFlat_text) ?_
  refine .cons rfl (.leaf Codec.isFlat_int32) ?_
  refine .cons rfl (.list (.leaf Codec.isFlat_text)) ?_
  refine .cons rfl (.list (.leaf Codec.isFlat_text)) ?_
  refine .cons rfl (.list GenericRuleDocument.describes_codec) ?_
  refine .cons rfl .time ?_
  refine .cons rfl .time ?_
  refine .cons rfl Notifications.describes_codec ?_
  exact .cons rfl (.leaf Codec.isFlat_text) .nil

end GenericDocument

namespace PolicyDocument

def forms : List Form :=
  [OdrlDocument.form, GenericDocument.form]

theorem not_clash_rules : ¬ Form.Clash RuleDocument.form GenericRuleDocument.form := by
  refine Form.not_clash_record (by decide) ?_
  simp only [List.map_cons, List.map_nil, List.zip_cons_cons, List.zip_nil_left,
    List.forall_mem_cons]
  refine ⟨?_, ?_, ?_, nofun⟩
  · exact fun h => h.ne rfl
  · exact fun h => h.ne rfl
  · exact fun h => nomatch h.isFlat_eq

theorem clear_forms : Form.Clear forms := by
  refine Form.clear_pair (Form.not_clash_record (by decide) ?_)
  have hleaf : ¬ Form.Clash .leaf .leaf := fun h => h.ne rfl
  simp only [List.map_cons, List.map_nil, List.zip_cons_cons, List.zip_nil_left,
    List.forall_mem_cons]
  refine ⟨hleaf, hleaf, hleaf, hleaf, hleaf, hleaf, ?_, ?_, ?_, ?_, nofun⟩
  · exact fun h => nomatch h.isFlat_eq
  · exact Form.not_clash_list fun h => nomatch h.isFlat_eq
  · exact Form.not_clash_list not_clash_rules
  · exact fun h => nomatch h.isFlat_eq

theorem ofJson?_eq (value : Json) :
    ofJson? value = ((OdrlDocument.codec.read value).toOption.map odrl).or
      ((GenericDocument.codec.read value).toOption.map generic) := by
  unfold ofJson?
  cases OdrlDocument.codec.read value with
  | ok document => rfl
  | error _ =>
    cases GenericDocument.codec.read value with
    | ok document => rfl
    | error _ => rfl

theorem ofJson?_congr {value other : Json} (h : Json.Alike forms value other) :
    ofJson? value = ofJson? other := by
  have hodrl := h.equates _ (by simp [forms]) _ _ OdrlDocument.describes_codec
  have hgeneric := h.equates _ (by simp [forms]) _ _ GenericDocument.describes_codec
  rw [ofJson?_eq, ofJson?_eq, hodrl.toOption_eq, hgeneric.toOption_eq]

theorem ofText_of_spelledBy {text : String} {value : Json} (h : value.SpelledBy text) :
    ofText text = (ofJson? value).elim (.error .neitherFamily) .ok := by
  have hread := Json.ofText_of_spells h (Nat.le_refl _)
  simp only [ofText, hread, Json.Spells.isReadable h, if_true]
  cases ofJson? value <;> rfl

theorem exists_spelledBy {text : String} {document : PolicyDocument}
    (h : ofText text = .ok document) : ∃ value : Json, value.SpelledBy text := by
  simp only [ofText] at h
  split at h
  · rename_i hreadable
    split at h
    · split at h
      · rename_i hend
        refine ⟨(Json.ofText text).value, Json.spelledBy_iff.mpr ⟨?_, hreadable⟩⟩
        rw [← List.isEmpty_iff.mp hend]
      · cases h
    · cases h
  · cases h

theorem read_of_ofText {text : String} {value : Json} {document : PolicyDocument}
    (htext : value.SpelledBy text) (h : ofText text = .ok document) :
    (∃ found, OdrlDocument.codec.read value = .ok found ∧ document = .odrl found) ∨
      ∃ found, GenericDocument.codec.read value = .ok found ∧ document = .generic found := by
  rw [ofText_of_spelledBy htext, ofJson?] at h
  cases hodrl : OdrlDocument.codec.read value with
  | ok found =>
    rw [hodrl] at h
    cases h
    exact .inl ⟨found, rfl, rfl⟩
  | error _ =>
    rw [hodrl] at h
    cases hgeneric : GenericDocument.codec.read value with
    | ok found =>
      rw [hgeneric] at h
      cases h
      exact .inr ⟨found, rfl, rfl⟩
    | error _ =>
      rw [hgeneric] at h
      cases h

theorem read_of_ofText_odrl {text : String} {value : Json} {document : OdrlDocument}
    (htext : value.SpelledBy text) (h : ofText text = .ok (.odrl document)) :
    OdrlDocument.codec.read value = .ok document := by
  rcases read_of_ofText htext h with ⟨_, hread, ⟨⟩⟩ | ⟨_, _, ⟨⟩⟩
  exact hread

theorem read_of_ofText_generic {text : String} {value : Json} {document : GenericDocument}
    (htext : value.SpelledBy text) (h : ofText text = .ok (.generic document)) :
    GenericDocument.codec.read value = .ok document := by
  rcases read_of_ofText htext h with ⟨_, _, ⟨⟩⟩ | ⟨_, hread, ⟨⟩⟩
  exact hread

theorem ofText_eq_of_alike {text otherText : String} {value other : Json}
    (htext : value.SpelledBy text) (hother : other.SpelledBy otherText)
    (h : Json.Alike forms value other) : ofText otherText = ofText text := by
  rw [ofText_of_spelledBy htext, ofText_of_spelledBy hother, ofJson?_congr h]

end PolicyDocument

end RightsPolicy
