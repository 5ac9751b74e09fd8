import RightsPolicy.Proofs.Json.Record

namespace RightsPolicy

inductive Json.Tidy : Json → Prop where
  | bool (b : Bool) : Tidy (.bool b)
  | integer (n : Int) : Tidy (.integer n)
  | text (s : String) : Tidy (.text s)
  | array {items} (hitems : items ≠ []) (h : ∀ item ∈ items, Tidy item) : Tidy (.array items)
  | object {members} (hmembers : members ≠ []) (hnames : (members.map Prod.fst).Nodup)
      (h : ∀ member ∈ members, Tidy member.2) : Tidy (.object members)

namespace Member

variable {α : Type} {name : String} {codec : Codec α}

def Tidy (member : Member α) (a : α) : Prop :=
  member.isOmitted a = false → (member.codec.write a).Tidy

theorem tidy_optional {value : Option α} (h : ∀ a ∈ value, (codec.write a).Tidy) :
    (optional name codec).Tidy value := by
  intro hwritten
  cases value with
  | none => cases hwritten
  | some a => exact h a rfl

theorem tidy_listOf {items : List α} (h : ∀ a ∈ items, (codec.write a).Tidy) :
    (listOf name codec).Tidy items := by
  intro hwritten
  cases items with
  | nil => cases hwritten
  | cons a items => exact .array (List.cons_ne_nil _ _) (List.forall_mem_map.mpr h)

theorem tidy_optional_text (value : Option String) : (optional name .text).Tidy value :=
  tidy_optional fun s _ => .text s

theorem tidy_optional_timestamp (value : Option Instant) : (optional name .timestamp).Tidy value :=
  tidy_optional fun _ _ => .text _

theorem tidy_texts (items : List String) : (listOf name .text).Tidy items :=
  tidy_listOf fun s _ => .text s

end Member

namespace Shape

variable {τ δ ρ : Type}

def Tidy : {τ δ : Type} → Shape τ δ → τ → Prop
  | _, _, .nil, () => True
  | _, _, .cons member rest, (a, b) => member.Tidy a ∧ rest.Tidy b

theorem tidy_members (shape : Shape τ δ) (values : τ) (h : shape.Tidy values) :
    ∀ entry ∈ shape.members values, entry.2.Tidy := by
  induction shape with
  | nil => simp [members]
  | cons member rest ih =>
    obtain ⟨a, b⟩ := values
    obtain ⟨hmember, hrest⟩ := h
    simp only [members]
    split
    · exact ih b hrest
    · rename_i hwritten
      exact List.forall_mem_cons.mpr ⟨hmember (by simpa using hwritten), ih b hrest⟩

theorem tidy_codec {shape : Shape τ δ} {values : ρ → τ} {make : τ → ρ} {record : ρ}
    (hnames : shape.names.Nodup) (hmembers : shape.members (values record) ≠ [])
    (h : shape.Tidy (values record)) : ((shape.codec values make).write record).Tidy :=
  .object hmembers (hnames.sublist (names_members_sublist shape _)) (tidy_members shape _ h)

end Shape

end RightsPolicy
