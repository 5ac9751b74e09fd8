import RightsPolicy.Proofs.Document.Form
import RightsPolicy.Proofs.Json.Plain

namespace RightsPolicy

namespace Json

inductive Rearranged (forms : List Form) : Json → Json → Prop
  | permuted {given others} (h : given.Perm others) :
      Rearranged forms (.object given) (.object others)
  | inserted {front name value back} (hname : ∀ form ∈ forms, name ∉ form.names)
      (hvalue : value.isReadable = true) :
      Rearranged forms (.object (front ++ back)) (.object (front ++ (name, value) :: back))

mutual

theorem isWhole_of_isReadable : (value : Json) → value.isReadable = true → value.isWhole = true
  | .array items, h => areWhole_of_areReadable items h
  | .object given, h => membersAreWhole_of_membersAreReadable given h
  | .null, _ => rfl
  | .bool _, _ => rfl
  | .integer _, _ => rfl
  | .decimal _, _ => rfl
  | .text _, _ => rfl

theorem areWhole_of_areReadable :
    (items : List Json) → areReadable items = true → areWhole items = true
  | [], _ => rfl
  | item :: items, h => by
    obtain ⟨hitem, hitems⟩ := Bool.and_eq_true_iff.mp h
    exact Bool.and_eq_true_iff.mpr
      ⟨isWhole_of_isReadable item hitem, areWhole_of_areReadable items hitems⟩

theorem membersAreWhole_of_membersAreReadable :
    (given : List (String × Json)) → membersAreReadable given = true → membersAreWhole given = true
  | [], _ => rfl
  | (_, value) :: given, h => by
    obtain ⟨hvalue, hgiven⟩ := Bool.and_eq_true_iff.mp h
    exact Bool.and_eq_true_iff.mpr
      ⟨isWhole_of_isReadable value hvalue, membersAreWhole_of_membersAreReadable given hgiven⟩

end

theorem membersAreWhole_iff (given : List (String × Json)) :
    membersAreWhole given = true ↔ ∀ entry ∈ given, entry.2.isWhole = true := by
  induction given with
  | nil => simp [membersAreWhole]
  | cons entry given ih => simp [membersAreWhole, ih]

end Json

namespace Shape

variable {τ δ : Type} {shape : Shape τ δ}

theorem readsFrom_perm {given others : List (String × Json)} (h : given.Perm others) (values : τ) :
    shape.ReadsFrom given values ↔ shape.ReadsFrom others values := by
  induction shape with
  | nil => rfl
  | cons member rest ih =>
    obtain ⟨a, b⟩ := values
    have hnamed : (Json.named member.name given).Perm (Json.named member.name others) :=
      (h.filter _).map _
    rw [ReadsFrom, ReadsFrom, Member.finds_perm hnamed, ih]

theorem read_perm (hnames : shape.names.Nodup) {given others : List (String × Json)}
    (h : given.Perm others) :
    Concur (shape.read (.object given)) (shape.read (.object others)) := by
  intro values
  rw [read_object_iff hnames, read_object_iff hnames, readsFrom_perm h]
  simp only [h.mem_iff]

theorem read_insert (hnames : shape.names.Nodup) {name : String} (hname : name ∉ shape.names)
    {value : Json} (hwhole : value.isWhole = true) (front back : List (String × Json)) :
    Concur (shape.read (.object (front ++ back)))
      (shape.read (.object (front ++ (name, value) :: back))) := by
  intro values
  have hsame : ∀ wanted ∈ shape.names, Json.named wanted (front ++ back) =
      Json.named wanted (front ++ (name, value) :: back) := by
    intro wanted hwanted
    have hne : name ≠ wanted := by
      rintro rfl
      exact hname hwanted
    rw [Json.named_append, Json.named_append, Json.named_cons_of_ne hne]
  rw [read_object_iff hnames, read_object_iff hnames, readsFrom_congr hsame]
  simp only [List.mem_append, List.mem_cons, or_imp, forall_and, forall_eq, hwhole, implies_true,
    true_and]

end Shape

namespace Json

theorem Rearranged.alike {forms : List Form} {value other : Json}
    (h : Rearranged forms value other) : Alike forms value other := by
  cases h with
  | permuted hperm =>
    apply Alike.of_objects
    · rw [Bool.eq_iff_iff, membersAreWhole_iff, membersAreWhole_iff]
      simp only [hperm.mem_iff]
    · intro members _ τ δ shape hnames _
      exact Shape.read_perm hnames hperm
  | inserted hname hvalue =>
    have hwhole := isWhole_of_isReadable _ hvalue
    apply Alike.of_objects
    · simp only [membersAreWhole_append, membersAreWhole, hwhole, Bool.true_and]
    · intro members hmem τ δ shape hnames hmembers
      have hunknown := hname _ hmem
      rw [Form.names, hmembers.names_eq] at hunknown
      exact Shape.read_insert hnames hunknown hwhole _ _

end Json

namespace PolicyDocument

theorem ofText_rearranged {text rearrangedText : String} {value rearranged : Json}
    (htext : value.SpelledBy text) (hrearranged : rearranged.SpelledBy rearrangedText)
    (h : Relation.ReflTransGen (Json.Edited Json.Rearranged forms) value rearranged) :
    ofText rearrangedText = ofText text := by
  apply ofText_eq_of_alike htext hrearranged
  exact Json.alike_of_edits (fun _ _ _ _ hedit => hedit.alike) clear_forms h

def plainSet : Json :=
  .object [("@context", .text "c"), ("permission", .array [.object [("action", .text "use")]]),
    ("@type", .text "Set")]

def annotatedSet : Json :=
  .object [("@type", .text "Set"), ("@context", .text "c"),
    ("permission", .array [.object [("type", .integer 1), ("action", .text "use")]])]

theorem ofText_annotatedSet :
    ofText (annotatedSet.render .indented) = ofText (plainSet.render .compact) ∧
      ofText (plainSet.render .compact) =
        .ok (.odrl ⟨"c", "Set", "", none, none, none, "", [⟨"use", none, []⟩], [], []⟩) := by
  have hplain : Json.Plain Json.Frame.depthLimit plainSet := by
    simp [plainSet, Json.Frame.depthLimit]
  have hannotated : Json.Plain Json.Frame.depthLimit annotatedSet := by
    simp [annotatedSet, Json.Frame.depthLimit, Json.IsWord]
  refine ⟨ofText_rearranged (hplain.spelledBy .compact) (hannotated.spelledBy .indented) ?_, ?_⟩
  · have hturned := @Json.Edited.here Json.Rearranged forms _ _
      (.permuted (@List.perm_append_comm _
        [("@context", .text "c"), ("permission", .array [.object [("action", .text "use")]])]
        [("@type", .text "Set")]))
    have hnoted := @Json.Edited.here Json.Rearranged [RuleDocument.form] _ _
      (@Json.Rearranged.inserted _ [] "type" (.integer 1) [("action", .text "use")] (by decide) rfl)
    have hlisted := @Json.Edited.item Json.Rearranged [.list RuleDocument.form] [] _ _ [] hnoted
    have hheld := @Json.Edited.member Json.Rearranged forms "permission"
      [("@type", .text "Set"), ("@context", .text "c")] _ _ [] hlisted
    exact .tail (.single hturned) hheld
  · decide +kernel

end PolicyDocument

end RightsPolicy
