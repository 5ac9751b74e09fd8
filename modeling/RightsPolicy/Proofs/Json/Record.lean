import RightsPolicy.Json.Shape
import RightsPolicy.Proofs.Calendar.Timestamp
import RightsPolicy.Proofs.Json.Plain

namespace RightsPolicy

structure Codec.Restores {α : Type} (codec : Codec α) (depth : Nat) (a : α) : Prop where
  plain : Json.Plain depth (codec.write a)
  read_write : codec.read (codec.write a) = .ok a

namespace Codec

variable {α : Type} {depth : Nat}

theorem restores_text (s : String) : text.Restores depth s :=
  ⟨.text s, rfl⟩

theorem restores_scalar (s : String) : scalar.Restores depth s :=
  ⟨.text s, rfl⟩

theorem restores_flag (b : Bool) : flag.Restores depth b :=
  ⟨.bool b, rfl⟩

theorem restores_word64 (n : UInt64) : word64.Restores depth n := by
  have hlt := n.toNat_lt
  refine ⟨.integer ?_, ?_⟩
  · simp only [Json.IsWord]
    omega
  · have hrange : (0 : Int) ≤ n.toNat ∧ (n.toNat : Int) < UInt64.size := by
      simp only [UInt64.size]
      omega
    simp only [word64, if_pos hrange, Int.toNat_natCast, UInt64.ofNat_toNat]

theorem restores_int32 (n : Int32) : int32.Restores depth n := by
  have hlow := n.le_toInt
  have hhigh := n.toInt_lt
  refine ⟨.integer ?_, ?_⟩
  · simp only [Json.IsWord]
    omega
  · have hrange : Int32.minValue.toInt ≤ n.toInt ∧ n.toInt ≤ Int32.maxValue.toInt :=
      ⟨n.minValue_le_toInt, n.toInt_le⟩
    simp only [int32, if_pos hrange, Int32.ofInt_toInt]

theorem restores_timestamp {t : Instant} (h : t.IsWritable) : timestamp.Restores depth t := by
  refine ⟨.text _, ?_⟩
  simp only [timestamp, Timestamp.read?_text h]

theorem restores_term [DecidableEq α] [Vocabulary α] (a : α) : term.Restores depth a := by
  refine ⟨.text _, ?_⟩
  simp only [term, Vocabulary.read_term]

theorem restores_list {codec : Codec α} {items : List α}
    (h : ∀ a ∈ items, codec.Restores depth a) : codec.list.Restores (depth + 1) items := by
  refine ⟨.array ?_, ?_⟩
  · intro item hitem
    obtain ⟨a, ha, rfl⟩ := List.mem_map.mp hitem
    exact (h a ha).plain
  · change codec.readItems (items.map codec.write) = .ok items
    induction items with
    | nil => rfl
    | cons a items ih =>
      obtain ⟨ha, hitems⟩ := List.forall_mem_cons.mp h
      simp only [List.map_cons, readItems, ha.read_write, ih hitems]
      rfl

theorem restores_option {codec : Codec α} {value : Option α}
    (h : ∀ a ∈ value, codec.Restores depth a ∧ codec.write a ≠ .null) :
    codec.option.Restores depth value := by
  cases value with
  | none => exact ⟨.null, rfl⟩
  | some a =>
    obtain ⟨hrestores, hnull⟩ := h a rfl
    refine ⟨hrestores.plain, ?_⟩
    have hread : codec.option.read (codec.write a) = (codec.read (codec.write a)).map some := by
      simp only [option]
    change codec.option.read (codec.write a) = .ok (some a)
    rw [hread, hrestores.read_write]
    rfl

theorem restores_option_text (value : Option String) : text.option.Restores depth value :=
  restores_option fun s _ => ⟨restores_text s, nofun⟩

theorem restores_option_term [DecidableEq α] [Vocabulary α] (value : Option α) :
    term.option.Restores depth value :=
  restores_option fun a _ => ⟨restores_term a, nofun⟩

end Codec

namespace Member

variable {α : Type} {depth : Nat}

def Restores (member : Member α) (depth : Nat) (a : α) : Prop :=
  if member.isOmitted a then member.ifAbsent = some a else member.codec.Restores depth a

theorem restores_optional {name : String} {codec : Codec α} {value : Option α}
    (h : codec.option.Restores depth value) : (optional name codec).Restores depth value := by
  cases value with
  | none => rfl
  | some a => exact h

theorem restores_listOf {name : String} {codec : Codec α} {items : List α}
    (h : ∀ a ∈ items, codec.Restores depth a) :
    (listOf name codec).Restores (depth + 1) items := by
  cases items with
  | nil => rfl
  | cons a items => exact Codec.restores_list h

theorem restores_optional_text {name : String} (value : Option String) :
    (optional name .text).Restores depth value :=
  restores_optional (Codec.restores_option_text value)

theorem restores_optional_timestamp {name : String} {value : Option Instant}
    (h : ∀ t ∈ value, t.IsWritable) : (optional name .timestamp).Restores depth value :=
  restores_optional (Codec.restores_option fun t ht => ⟨Codec.restores_timestamp (h t ht), nofun⟩)

theorem restores_texts {name : String} (items : List String) :
    (listOf name .text).Restores (depth + 1) items :=
  restores_listOf fun s _ => Codec.restores_text s

end Member

namespace Shape

variable {α τ δ ρ : Type} {depth : Nat}

def names : {τ δ : Type} → Shape τ δ → List String
  | _, _, .nil => []
  | _, _, .cons member rest => member.name :: rest.names

def Restores : {τ δ : Type} → Shape τ δ → Nat → τ → Prop
  | _, _, .nil, _, () => True
  | _, _, .cons member rest, depth, (a, b) => member.Restores depth a ∧ rest.Restores depth b

def slots : {τ δ : Type} → Shape τ δ → τ → δ
  | _, _, .nil, () => ()
  | _, _, .cons member rest, (a, b) =>
    (if member.isOmitted a then none else some a, rest.slots b)

theorem names_members_sublist (shape : Shape τ δ) (values : τ) :
    ((shape.members values).map Prod.fst).Sublist shape.names := by
  induction shape with
  | nil => exact .slnil
  | cons member rest ih =>
    obtain ⟨a, b⟩ := values
    simp only [members]
    split
    · exact (ih b).cons _
    · exact (ih b).cons_cons _

theorem mem_names_of_mem_members (shape : Shape τ δ) (values : τ) :
    ∀ member ∈ shape.members values, member.1 ∈ shape.names :=
  fun _ hmember => (names_members_sublist shape values).subset (List.mem_map_of_mem hmember)

theorem takeAll_cons_of_ne (member : Member α) (rest : Shape τ δ) (slot : Option α) (draft : δ)
    (given : List (String × Json)) (h : ∀ entry ∈ given, entry.1 ≠ member.name) :
    (cons member rest).takeAll (slot, draft) given =
      (rest.takeAll draft given).map fun draft => (slot, draft) := by
  induction given generalizing draft with
  | nil => rfl
  | cons entry given ih =>
    obtain ⟨name, value⟩ := entry
    obtain ⟨hname, hgiven⟩ := List.forall_mem_cons.mp h
    simp only [takeAll, take, if_neg hname]
    cases rest.take draft name value with
    | error cause => rfl
    | ok draft => exact ih draft hgiven

theorem takeAll_members (shape : Shape τ δ) (values : τ) (hnames : shape.names.Nodup)
    (h : shape.Restores depth values) :
    shape.takeAll shape.start (shape.members values) = .ok (shape.slots values) := by
  induction shape with
  | nil => rfl
  | cons member rest ih =>
    obtain ⟨a, b⟩ := values
    obtain ⟨hmember, hrest⟩ := h
    obtain ⟨hname, hnames⟩ := List.nodup_cons.mp hnames
    have hother : ∀ entry ∈ rest.members b, entry.1 ≠ member.name := by
      rintro entry hentry heq
      exact hname (heq ▸ mem_names_of_mem_members rest b entry hentry)
    have htake (slot : Option _) := takeAll_cons_of_ne member rest slot rest.start _ hother
    simp only [ih b hnames hrest] at htake
    simp only [members, slots, start]
    unfold Member.Restores at hmember
    split
    · exact htake none
    · rename_i homitted
      rw [if_neg homitted] at hmember
      simp only [takeAll, take, hmember.read_write, if_true]
      exact htake (some a)

theorem complete_slots (shape : Shape τ δ) (values : τ) (h : shape.Restores depth values) :
    shape.complete (shape.slots values) = .ok values := by
  induction shape with
  | nil => rfl
  | cons member rest ih =>
    obtain ⟨a, b⟩ := values
    obtain ⟨hmember, hrest⟩ := h
    unfold Member.Restores at hmember
    simp only [slots, complete, ih b hrest]
    split at hmember
    · rename_i homitted
      simp [homitted, hmember, Except.map]
    · rename_i homitted
      simp [homitted, Except.map]

theorem plain_members (shape : Shape τ δ) (values : τ) (h : shape.Restores depth values) :
    ∀ entry ∈ shape.members values, Json.Plain depth entry.2 := by
  induction shape with
  | nil => simp [members]
  | cons member rest ih =>
    obtain ⟨a, b⟩ := values
    obtain ⟨hmember, hrest⟩ := h
    intro entry hentry
    unfold Member.Restores at hmember
    simp only [members] at hentry
    split at hentry
    · exact ih b hrest entry hentry
    · rename_i homitted
      rw [if_neg homitted] at hmember
      rcases List.mem_cons.mp hentry with rfl | hentry
      · exact hmember.plain
      · exact ih b hrest entry hentry

theorem restores_codec {shape : Shape τ δ} {values : ρ → τ} {make : τ → ρ} {record : ρ}
    (hnames : shape.names.Nodup) (hmake : make (values record) = record)
    (h : shape.Restores depth (values record)) :
    (shape.codec values make).Restores (depth + 1) record := by
  refine ⟨.object (plain_members shape _ h), ?_⟩
  have hread : shape.read (.object (shape.members (values record))) = .ok (values record) := by
    simp only [read, takeAll_members shape _ hnames h]
    exact complete_slots shape _ h
  change (shape.read (.object (shape.members (values record)))).map make = .ok record
  rw [hread]
  exact congrArg Except.ok hmake

theorem read_eq_error_of_absent {member : Member α} {rest : Shape τ δ} {values : ρ → α × τ}
    {make : α × τ → ρ} {given : List (String × Json)} (hneeded : member.ifAbsent = none)
    (habsent : ∀ entry ∈ given, entry.1 ≠ member.name) :
    ∃ cause, ((cons member rest).codec values make).read (.object given) = .error cause := by
  have htake := takeAll_cons_of_ne member rest none rest.start given habsent
  simp only [codec, read, start, htake]
  cases rest.takeAll rest.start given with
  | error cause => exact ⟨cause, rfl⟩
  | ok draft =>
    have hcomplete : (cons member rest).complete (none, draft) = .error .mismatch := by
      simp [complete, hneeded]
    refine ⟨.mismatch, ?_⟩
    change ((cons member rest).complete (none, draft)).map make = _
    rw [hcomplete]
    rfl

end Shape

end RightsPolicy
