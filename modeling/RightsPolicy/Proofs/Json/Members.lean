import RightsPolicy.Proofs.Json.Reading

namespace RightsPolicy

def Json.named (name : String) (given : List (String × Json)) : List Json :=
  (given.filter fun entry => entry.1 = name).map Prod.snd

namespace Json

variable {name : String}

theorem named_nil : named name [] = [] :=
  rfl

theorem named_cons_self (value : Json) (given : List (String × Json)) :
    named name ((name, value) :: given) = value :: named name given := by
  simp [named]

theorem named_cons_of_ne {other : String} (h : other ≠ name) (value : Json)
    (given : List (String × Json)) : named name ((other, value) :: given) = named name given := by
  simp [named, h]

theorem named_append (front back : List (String × Json)) :
    named name (front ++ back) = named name front ++ named name back := by
  simp [named]

theorem named_filter_ne {other : String} (h : name ≠ other) (given : List (String × Json)) :
    named name (given.filter fun entry => entry.1 ≠ other) = named name given := by
  have hboth (entry : String × Json) :
      (decide (entry.1 = name) && decide (entry.1 ≠ other)) = decide (entry.1 = name) := by
    by_cases heq : entry.1 = name
    · simp [heq, h]
    · simp [heq]
  simp only [named, List.filter_filter, hboth]

theorem mem_named {value : Json} {given : List (String × Json)} :
    value ∈ named name given ↔ (name, value) ∈ given := by
  simp [named]

end Json

namespace Member

variable {α : Type}

def Finds (member : Member α) : List Json → α → Prop
  | [], a => member.ifAbsent = some a
  | [value], a => member.codec.read value = .ok a
  | _ :: _ :: _, _ => False

def Gathers (member : Member α) (slot : Option α) : List Json → Option α → Prop
  | [], after => after = slot
  | [value], after => slot = none ∧ ∃ a, member.codec.read value = .ok a ∧ after = some a
  | _ :: _ :: _, _ => False

theorem gathers_some {member : Member α} {a : α} {values : List Json} {after : Option α} :
    member.Gathers (some a) values after ↔ values = [] ∧ after = some a := by
  match values with
  | [] => simp [Gathers]
  | [_] => simp [Gathers]
  | _ :: _ :: _ => simp [Gathers]

theorem gathers_cons {member : Member α} {value : Json} {values : List Json} {after : Option α} :
    member.Gathers none (value :: values) after ↔
      ∃ a, member.codec.read value = .ok a ∧ member.Gathers (some a) values after := by
  simp only [gathers_some]
  cases values with
  | nil => simp [Gathers]
  | cons other values => simp [Gathers]

theorem finds_iff {member : Member α} {values : List Json} {a : α} :
    member.Finds values a ↔
      ∃ slot, member.Gathers none values slot ∧ (slot <|> member.ifAbsent) = some a := by
  match values with
  | [] => simp [Finds, Gathers]
  | [value] => simp [Finds, Gathers]
  | _ :: _ :: _ => simp [Finds, Gathers]

theorem finds_perm {member : Member α} {values others : List Json} (h : values.Perm others)
    (a : α) : member.Finds values a ↔ member.Finds others a := by
  match values with
  | [] => rw [List.nil_perm.mp h]
  | [_] => rw [List.singleton_perm.mp h]
  | _ :: _ :: _ =>
    match others with
    | [] => cases List.perm_nil.mp h
    | [_] => cases List.perm_singleton.mp h
    | _ :: _ :: _ => rfl

end Member

namespace Shape

variable {α τ δ ρ : Type}

def ReadsFrom (given : List (String × Json)) : {τ δ : Type} → Shape τ δ → τ → Prop
  | _, _, .nil, () => True
  | _, _, .cons member rest, (a, b) =>
    member.Finds (Json.named member.name given) a ∧ rest.ReadsFrom given b

theorem readsFrom_congr {shape : Shape τ δ} {given other : List (String × Json)}
    (h : ∀ name ∈ shape.names, Json.named name given = Json.named name other) (values : τ) :
    shape.ReadsFrom given values ↔ shape.ReadsFrom other values := by
  induction shape with
  | nil => rfl
  | cons member rest ih =>
    obtain ⟨hmember, hrest⟩ := List.forall_mem_cons.mp h
    simp only [ReadsFrom, hmember, ih hrest]

theorem takeAll_nil_iff {given : List (String × Json)} :
    nil.takeAll () given = .ok () ↔ ∀ entry ∈ given, entry.2.isWhole = true := by
  induction given with
  | nil => simp [takeAll]
  | cons entry given ih =>
    obtain ⟨name, value⟩ := entry
    simp only [takeAll, take, List.forall_mem_cons, ← ih]
    cases value.isWhole with
    | false => simp [bind, Except.bind]
    | true => simp [bind, Except.bind]

theorem takeAll_cons_iff {member : Member α} {rest : Shape τ δ} {slot after : Option α}
    {draft final : δ} {given : List (String × Json)} :
    (cons member rest).takeAll (slot, draft) given = .ok (after, final) ↔
      member.Gathers slot (Json.named member.name given) after ∧
        rest.takeAll draft (given.filter fun entry => entry.1 ≠ member.name) = .ok final := by
  induction given generalizing slot draft with
  | nil =>
    simp only [takeAll, Json.named_nil, Member.Gathers, List.filter_nil, Except.ok.injEq,
      Prod.mk.injEq, eq_comm]
  | cons entry given ih =>
    obtain ⟨name, value⟩ := entry
    by_cases hname : name = member.name
    · subst hname
      rw [Json.named_cons_self, List.filter_cons_of_neg (by simp)]
      cases slot with
      | some a => simp [takeAll, take, Member.gathers_some, bind, Except.bind]
      | none =>
        rw [takeAll, bind_eq_ok_iff, Member.gathers_cons]
        simp only [take, ↓reduceIte, map_eq_ok_iff]
        constructor
        · rintro ⟨_, ⟨a, ha, rfl⟩, hrest⟩
          obtain ⟨hgathers, hrest⟩ := ih.mp hrest
          exact ⟨⟨a, ha, hgathers⟩, hrest⟩
        · rintro ⟨⟨a, ha, hgathers⟩, hrest⟩
          exact ⟨_, ⟨a, ha, rfl⟩, ih.mpr ⟨hgathers, hrest⟩⟩
    · rw [Json.named_cons_of_ne hname, List.filter_cons_of_pos (by simpa using hname), takeAll,
        takeAll, bind_eq_ok_iff, bind_eq_ok_iff]
      simp only [take, if_neg hname, map_eq_ok_iff]
      constructor
      · rintro ⟨_, ⟨middle, hmiddle, rfl⟩, hrest⟩
        obtain ⟨hgathers, hrest⟩ := ih.mp hrest
        exact ⟨hgathers, middle, hmiddle, hrest⟩
      · rintro ⟨hgathers, middle, hmiddle, hrest⟩
        exact ⟨_, ⟨middle, hmiddle, rfl⟩, ih.mpr ⟨hgathers, hrest⟩⟩

theorem complete_cons_iff {member : Member α} {rest : Shape τ δ} {slot : Option α} {draft : δ}
    {a : α} {b : τ} :
    (cons member rest).complete (slot, draft) = .ok (a, b) ↔
      (slot <|> member.ifAbsent) = some a ∧ rest.complete draft = .ok b := by
  rw [complete]
  split
  · rename_i found hfound
    simp [hfound, map_eq_ok_iff, and_comm]
  · rename_i hnone
    simp [hnone]

theorem read_object_iff {shape : Shape τ δ} (hnames : shape.names.Nodup)
    {given : List (String × Json)} {values : τ} :
    shape.read (.object given) = .ok values ↔
      shape.ReadsFrom given values ∧
        ∀ entry ∈ given, entry.1 ∉ shape.names → entry.2.isWhole = true := by
  rw [read, bind_eq_ok_iff]
  induction shape generalizing given with
  | nil =>
    constructor
    · rintro ⟨_, hwhole, -⟩
      exact ⟨trivial, fun entry hentry _ => takeAll_nil_iff.mp hwhole entry hentry⟩
    · rintro ⟨-, hwhole⟩
      exact ⟨(), takeAll_nil_iff.mpr fun entry hentry => hwhole entry hentry List.not_mem_nil, rfl⟩
  | cons member rest ih =>
    obtain ⟨a, b⟩ := values
    obtain ⟨hname, hnames⟩ := List.nodup_cons.mp hnames
    have hrest : rest.ReadsFrom (given.filter fun entry => entry.1 ≠ member.name) b ↔
        rest.ReadsFrom given b := by
      refine readsFrom_congr (fun name hmem => ?_) b
      refine Json.named_filter_ne ?_ given
      rintro rfl
      exact hname hmem
    have hothers : (∀ entry ∈ given.filter fun entry => entry.1 ≠ member.name,
        entry.1 ∉ rest.names → entry.2.isWhole = true) ↔
          ∀ entry ∈ given, entry.1 ∉ (cons member rest).names → entry.2.isWhole = true := by
      simp only [List.mem_filter, decide_eq_true_eq, names, List.mem_cons, not_or, and_imp]
    rw [ReadsFrom, and_assoc, ← hrest, ← hothers, ← ih hnames, Member.finds_iff]
    constructor
    · rintro ⟨⟨slot, draft⟩, htake, hcomplete⟩
      obtain ⟨hgathers, htake⟩ := takeAll_cons_iff.mp htake
      obtain ⟨hslot, hcomplete⟩ := complete_cons_iff.mp hcomplete
      exact ⟨⟨slot, hgathers, hslot⟩, draft, htake, hcomplete⟩
    · rintro ⟨⟨slot, hgathers, hslot⟩, draft, htake, hcomplete⟩
      exact ⟨(slot, draft), takeAll_cons_iff.mpr ⟨hgathers, htake⟩,
        complete_cons_iff.mpr ⟨hslot, hcomplete⟩⟩

end Shape

def Json.HasField (value : Json) (index : Nat) (name : String) (part : Json) : Prop :=
  match value with
  | .object given => (name, part) ∈ given
  | .array items => items[index]? = some part
  | _ => False

theorem Member.read_of_finds {α : Type} {member : Member α} {values : List Json} {a : α}
    (h : member.Finds values a) {value : Json} (hvalue : value ∈ values) :
    member.codec.read value = .ok a := by
  match values with
  | [] => cases hvalue
  | [_] =>
    rw [List.mem_singleton.mp hvalue]
    exact h
  | _ :: _ :: _ => exact h.elim

namespace Shape

variable {τ δ : Type}

def ReadsFields (value : Json) : {τ δ : Type} → Shape τ δ → Nat → τ → Prop
  | _, _, .nil, _, () => True
  | _, _, .cons member rest, index, (a, b) =>
    (∀ part, value.HasField index member.name part → member.codec.read part = .ok a) ∧
      rest.ReadsFields value (index + 1) b

theorem readsFields_of_readsFrom {shape : Shape τ δ} {given : List (String × Json)} {values : τ}
    (h : shape.ReadsFrom given values) (index : Nat) :
    shape.ReadsFields (.object given) index values := by
  induction shape generalizing index with
  | nil => trivial
  | cons member rest ih =>
    obtain ⟨hmember, hrest⟩ := h
    exact ⟨fun part hpart => Member.read_of_finds hmember (Json.mem_named.mpr hpart),
      ih hrest (index + 1)⟩

theorem readsFields_of_readItems {shape : Shape τ δ} {items : List Json} {values : τ} {index : Nat}
    (h : shape.readItems (items.drop index) = .ok values) :
    shape.ReadsFields (.array items) index values := by
  induction shape generalizing index with
  | nil => trivial
  | cons member rest ih =>
    obtain ⟨a, b⟩ := values
    have hfirst : (items.drop index)[0]? = items[index]? := by simp
    have htail : (items.drop index).tail = items.drop (index + 1) := List.tail_drop
    cases hitems : items.drop index with
    | nil =>
      rw [hitems] at h hfirst htail
      simp only [readItems] at h
      split at h
      · obtain ⟨_, hrest, ⟨⟩⟩ := map_eq_ok_iff.mp h
        rw [← List.tail_nil, htail] at hrest
        refine ⟨fun part hpart => ?_, ih hrest⟩
        cases hfirst.trans hpart
      · cases h
    | cons item tail =>
      rw [hitems] at h hfirst htail
      obtain ⟨_, ha, h⟩ := bind_eq_ok_iff.mp h
      obtain ⟨_, hrest, ⟨⟩⟩ := bind_eq_ok_iff.mp h
      rw [List.tail_cons] at htail
      rw [htail] at hrest
      refine ⟨fun part hpart => ?_, ih hrest⟩
      cases hfirst.trans hpart
      exact ha

theorem readsFields_of_read {shape : Shape τ δ} (hnames : shape.names.Nodup) {value : Json}
    {values : τ} (h : shape.read value = .ok values) : shape.ReadsFields value 0 values := by
  cases value with
  | object given => exact readsFields_of_readsFrom ((read_object_iff hnames).mp h).1 0
  | array items => exact readsFields_of_readItems h
  | misnamed given =>
    obtain ⟨_, _, h⟩ := bind_eq_ok_iff.mp h
    cases h
  | _ => cases h

end Shape

end RightsPolicy
