import RightsPolicy.Proofs.Json.Record
import RightsPolicy.Proofs.Outcome

namespace RightsPolicy

def Member.Reads {α : Type} (member : Member α) (a : α) : Prop :=
  (∃ value, member.codec.read value = .ok a) ∨ member.ifAbsent = some a ∨ member.ifCutOff = some a

theorem Member.reads_optional {α : Type} {name : String} {codec : Codec α} {a : α}
    (h : (optional name codec).Reads (some a)) : ∃ value, codec.read value = .ok a := by
  rcases h with ⟨value, hvalue⟩ | h | h
  · change codec.option.read value = .ok (some a) at hvalue
    dsimp only [Codec.option] at hvalue
    split at hvalue
    · cases hvalue
    · obtain ⟨b, hb, ⟨⟩⟩ := map_eq_ok_iff.mp hvalue
      exact ⟨_, hb⟩
  · cases h
  · cases h

namespace Shape

variable {τ δ ρ : Type}

def Reads : {τ δ : Type} → Shape τ δ → τ → Prop
  | _, _, .nil, () => True
  | _, _, .cons member rest, (a, b) => member.Reads a ∧ rest.Reads b

def Met : {τ δ : Type} → Shape τ δ → δ → Prop
  | _, _, .nil, () => True
  | _, _, .cons member rest, (slot, draft) => (∀ a ∈ slot, member.Reads a) ∧ rest.Met draft

theorem met_start (shape : Shape τ δ) : shape.Met shape.start := by
  induction shape with
  | nil => trivial
  | cons member rest ih => exact ⟨nofun, ih⟩

theorem met_take {shape : Shape τ δ} {draft after : δ} {name : String} {value : Json}
    (hmet : shape.Met draft) (h : shape.take draft name value = .ok after) : shape.Met after := by
  induction shape with
  | nil => trivial
  | cons member rest ih =>
    obtain ⟨slot, draft⟩ := draft
    simp only [take] at h
    split at h
    · split at h
      · cases h
      · obtain ⟨a, ha, rfl⟩ := map_eq_ok_iff.mp h
        refine ⟨?_, hmet.2⟩
        rintro _ ⟨⟩
        exact .inl ⟨value, ha⟩
    · obtain ⟨draft, hdraft, rfl⟩ := map_eq_ok_iff.mp h
      exact ⟨hmet.1, ih hmet.2 hdraft⟩

theorem met_takeAll {shape : Shape τ δ} {draft after : δ} {given : List (String × Json)}
    (hmet : shape.Met draft) (h : shape.takeAll draft given = .ok after) : shape.Met after := by
  induction given generalizing draft with
  | nil =>
    cases h
    exact hmet
  | cons entry given ih =>
    obtain ⟨middle, hmiddle, h⟩ := bind_eq_ok_iff.mp h
    exact ih (met_take hmet hmiddle) h

theorem reads_complete {shape : Shape τ δ} {draft : δ} {values : τ} (hmet : shape.Met draft)
    (h : shape.complete draft = .ok values) : shape.Reads values := by
  induction shape with
  | nil => trivial
  | cons member rest ih =>
    obtain ⟨slot, draft⟩ := draft
    simp only [complete] at h
    split at h
    · rename_i a hslot
      obtain ⟨b, hb, rfl⟩ := map_eq_ok_iff.mp h
      refine ⟨?_, ih hmet.2 hb⟩
      cases slot with
      | none => exact .inr (.inl hslot)
      | some met =>
        cases hslot
        exact hmet.1 _ rfl
    · cases h

theorem reads_readItems {shape : Shape τ δ} {items : List Json} {values : τ}
    (h : shape.readItems items = .ok values) : shape.Reads values := by
  induction shape generalizing items with
  | nil => trivial
  | cons member rest ih =>
    cases items with
    | nil =>
      simp only [readItems] at h
      split at h
      · rename_i a hcutOff
        obtain ⟨b, hb, rfl⟩ := map_eq_ok_iff.mp h
        exact ⟨.inr (.inr hcutOff), ih hb⟩
      · cases h
    | cons item items =>
      obtain ⟨a, ha, h⟩ := bind_eq_ok_iff.mp h
      obtain ⟨b, hb, ⟨⟩⟩ := bind_eq_ok_iff.mp h
      exact ⟨.inl ⟨item, ha⟩, ih hb⟩

theorem reads_of_read {shape : Shape τ δ} {value : Json} {values : τ}
    (h : shape.read value = .ok values) : shape.Reads values := by
  unfold read at h
  split at h
  · obtain ⟨draft, hdraft, hcomplete⟩ := bind_eq_ok_iff.mp h
    exact reads_complete (met_takeAll shape.met_start hdraft) hcomplete
  · obtain ⟨_, _, h⟩ := bind_eq_ok_iff.mp h
    cases h
  · exact reads_readItems h
  · cases h

end Shape

end RightsPolicy
