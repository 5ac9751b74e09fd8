import RightsPolicy.Proofs.Document.Form
import RightsPolicy.Proofs.Json.Plain

namespace RightsPolicy

namespace Json

theorem ofList_integerChars (n : Int) : String.ofList (integerChars n) = toString n := by
  cases n with
  | ofNat n => exact String.ofList_toList
  | negSucc n =>
    have htext : toString (Int.negSucc n) = "-" ++ Nat.repr (n + 1) := rfl
    apply String.toList_inj.mp
    rw [integerChars, if_pos (Int.negSucc_lt_zero n), Int.natAbs_negSucc, htext]
    simp

inductive Worded (forms : List Form) : Json → Json → Prop
  | integer {n} (hscalar : .scalar ∈ forms) : Worded forms (.integer n) (.text (toString n))
  | bool {b} (hscalar : .scalar ∈ forms) : Worded forms (.bool b) (.text (toString b))
  | null (hscalar : .scalar ∈ forms) : Worded forms .null (.text "")

theorem alike_scalar {forms : List Form} (hclear : Form.Clear forms) (hscalar : .scalar ∈ forms)
    {value other : Json} (hwhole : value.isWhole = other.isWhole) (hvalue : value.hasParts = false)
    (hother : other.hasParts = false)
    (hread : Codec.scalar.read value = Codec.scalar.read other) : Alike forms value other := by
  apply Alike.of_isFlat hclear hscalar rfl hwhole hvalue hother
  intro α codec hdescribes
  cases hdescribes with
  | scalar =>
    rw [hread]
    exact .refl _

theorem Worded.alike {forms : List Form} (hclear : Form.Clear forms) {value other : Json}
    (h : Worded forms value other) : Alike forms value other := by
  cases h with
  | @integer n hscalar =>
    have hread : Codec.scalar.read (.integer n) = Codec.scalar.read (.text (toString n)) :=
      congrArg Except.ok (ofList_integerChars n)
    exact alike_scalar hclear hscalar rfl rfl rfl hread
  | @bool b hscalar =>
    have hread : Codec.scalar.read (.bool b) = Codec.scalar.read (.text (toString b)) := by
      cases b <;> rfl
    exact alike_scalar hclear hscalar rfl rfl rfl hread
  | null hscalar =>
    have hread : Codec.scalar.read .null = Codec.scalar.read (.text "") := rfl
    exact alike_scalar hclear hscalar rfl rfl rfl hread

theorem read_ne_ok_of_holds {α : Type} {form : Form} {codec : Codec α}
    (hdescribes : form.Describes codec) {value operand : Json}
    (hholds : Holds form value .scalar operand) (hparts : operand.hasParts = true) (a : α) :
    codec.read value ≠ .ok a := by
  intro hread
  have hfits : form.Fits value := ⟨α, codec, a, hdescribes, hread⟩
  have hflat := (hfits.of_holds hholds).hasParts rfl
  rw [hparts] at hflat
  cases hflat

end Json

namespace PolicyDocument

theorem scalars_read_as_texts :
    (∀ (text wordedText : String) (value worded : Json),
      value.SpelledBy text → worded.SpelledBy wordedText →
        Relation.ReflTransGen (Json.Edited Json.Worded forms) value worded →
          ofText wordedText = ofText text) ∧
    (∀ (text : String) (value operand : Json), value.SpelledBy text →
      Json.Holds OdrlDocument.form value .scalar operand → operand.hasParts = true →
        ∀ document, ofText text ≠ .ok (.odrl document)) ∧
    (∀ (text : String) (value operand : Json), value.SpelledBy text →
      Json.Holds GenericDocument.form value .scalar operand → operand.hasParts = true →
        ∀ document, ofText text ≠ .ok (.generic document)) := by
  refine ⟨?_, ?_, ?_⟩
  · intro text wordedText value worded htext hworded h
    apply ofText_eq_of_alike htext hworded
    exact Json.alike_of_edits (fun _ _ _ hclear hedit => hedit.alike hclear) clear_forms h
  · intro text value operand htext hholds hparts document hread
    exact Json.read_ne_ok_of_holds OdrlDocument.describes_codec hholds hparts document
      (read_of_ofText_odrl htext hread)
  · intro text value operand htext hholds hparts document hread
    exact Json.read_ne_ok_of_holds GenericDocument.describes_codec hholds hparts document
      (read_of_ofText_generic htext hread)

def setWith (operand : Json) : Json :=
  .object [("@context", .text "c"), ("@type", .text "Set"),
    ("permission", .array [.object [("constraint", .array [.object [("rightOperand", operand)]])]])]

def usageWith (operand : Json) : Json :=
  .object [("name", .text "n"), ("kind", .text "usage"),
    ("rules", .array [.object [("value", operand)]])]

theorem scalars_read_as_texts_setWith :
    ofText ((setWith (.text "-7")).render .compact) =
        ofText ((setWith (.integer (-7))).render .compact) ∧
      ofText ((setWith (.integer (-7))).render .compact) =
        .ok (.odrl ⟨"c", "Set", "", none, none, none, "", [⟨"", none, [⟨"", "", "-7"⟩]⟩], [], []⟩) ∧
      (∀ document, ofText ((setWith (.array [])).render .compact) ≠ .ok (.odrl document)) ∧
      ∀ document, ofText ((usageWith (.array [])).render .compact) ≠ .ok (.generic document) := by
  obtain ⟨hsame, hodrl, hgeneric⟩ := scalars_read_as_texts
  have hset (operand : Json) (h : Json.Plain 122 operand) :
      Json.Plain Json.Frame.depthLimit (setWith operand) := by
    simpa [setWith, Json.Frame.depthLimit] using h
  have husage (operand : Json) (h : Json.Plain 124 operand) :
      Json.Plain Json.Frame.depthLimit (usageWith operand) := by
    simpa [usageWith, Json.Frame.depthLimit] using h
  have hthird (a b c : String × Json) : c ∈ [a, b, c] := by simp
  refine ⟨?_, by decide +kernel, ?_, ?_⟩
  · have hoperand : Json.Edited Json.Worded [.scalar] (.integer (-7)) (.text "-7") :=
      .here (.integer List.mem_cons_self)
    have hconstraint :=
      @Json.Edited.member Json.Worded [ConstraintDocument.form] "rightOperand" [] _ _ [] hoperand
    have hconstraints :=
      @Json.Edited.item Json.Worded [.list ConstraintDocument.form] [] _ _ [] hconstraint
    have hrule := @Json.Edited.member Json.Worded [RuleDocument.form] "constraint" [] _ _ []
      hconstraints
    have hrules := @Json.Edited.item Json.Worded [.list RuleDocument.form] [] _ _ [] hrule
    have hdocument := @Json.Edited.member Json.Worded forms "permission"
      [("@context", .text "c"), ("@type", .text "Set")] _ _ [] hrules
    exact hsame _ _ _ _ ((hset (.integer (-7)) (by simp [Json.IsWord])).spelledBy .compact)
      ((hset (.text "-7") (by simp)).spelledBy .compact) (.single hdocument)
  · have hconstraint : Json.Holds ConstraintDocument.form (.object [("rightOperand", .array [])])
        .scalar (.array []) := @Json.Holds.field _ 2 _ _ _ _ _ _ rfl List.mem_cons_self .here
    have hrule : Json.Holds RuleDocument.form
        (.object [("constraint", .array [.object [("rightOperand", .array [])]])]) .scalar
        (.array []) :=
      @Json.Holds.field _ 2 _ _ _ _ _ _ rfl List.mem_cons_self
        (.item List.mem_cons_self hconstraint)
    refine hodrl _ _ (.array []) ((hset (.array []) (by simp)).spelledBy .compact) ?_ rfl
    exact @Json.Holds.field _ 7 _ _ _ _ _ _ rfl (hthird _ _ _) (.item List.mem_cons_self hrule)
  · have hrule : Json.Holds GenericRuleDocument.form (.object [("value", .array [])]) .scalar
        (.array []) := @Json.Holds.field _ 2 _ _ _ _ _ _ rfl List.mem_cons_self .here
    refine hgeneric _ _ (.array []) ((husage (.array []) (by simp)).spelledBy .compact) ?_ rfl
    exact @Json.Holds.field _ 8 _ _ _ _ _ _ rfl (hthird _ _ _) (.item List.mem_cons_self hrule)

end PolicyDocument

end RightsPolicy
