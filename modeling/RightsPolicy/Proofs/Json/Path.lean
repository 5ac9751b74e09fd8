import RightsPolicy.Proofs.Json.Record
import RightsPolicy.Proofs.Text.Digits

namespace RightsPolicy

namespace Json

inductive PathStep where
  | key (name : String)
  | index (n : Nat)
  deriving DecidableEq, Repr

inductive Place where
  | value (found : Json)
  | absent
  | lost

def follow (value : Json) : List PathStep → Place
  | [] => .value value
  | .key name :: rest =>
    match value with
    | .object members =>
      match members.lookup name with
      | some member => member.follow rest
      | none => if rest.isEmpty then .absent else .lost
    | _ => .lost
  | .index n :: rest =>
    match value with
    | .array items =>
      match items[n]? with
      | some item => item.follow rest
      | none => .lost
    | _ => .lost

def partSteps? (part : List Char) : Option (List PathStep) :=
  let key := PathStep.key (String.ofList (part.takeWhile (· ≠ '[')))
  match part.dropWhile (· ≠ '[') with
  | [] => some [key]
  | _ :: rest =>
    match Text.digits? rest with
    | some (digits, [']']) => some [key, .index (Text.digitsValue digits)]
    | _ => none

def pathSteps? (path : String) : Option (List PathStep) :=
  ((path.toList.splitOn '.').mapM partSteps?).map List.flatten

def place (value : Json) (path : String) : Place :=
  match pathSteps? path with
  | some steps => value.follow steps
  | none => .lost

section Follow

variable {members : List (String × Json)} {items : List Json} {value : Json} {rest : List PathStep}

theorem follow_key {name : String} (h : members.lookup name = some value) :
    (object members).follow (.key name :: rest) = value.follow rest := by
  simp only [follow, h]

theorem follow_absent {name : String} (h : members.lookup name = none) :
    (object members).follow [.key name] = .absent := by
  simp only [follow, h, List.isEmpty_nil, if_true]

theorem follow_index {n : Nat} (h : items[n]? = some value) :
    (array items).follow (.index n :: rest) = value.follow rest := by
  simp only [follow, h]

end Follow

def IsPathKey (name : String) : Prop :=
  ∀ c ∈ name.toList, c ≠ '.' ∧ c ≠ '['

instance (name : String) : Decidable (IsPathKey name) :=
  List.decidableBAll (fun c => c ≠ '.' ∧ c ≠ '[') name.toList

def indexedPart (name : String) (n : Nat) : List Char :=
  name.toList ++ '[' :: (Nat.toDigits 10 n ++ [']'])

section Parts

variable {name : String} (hname : IsPathKey name)

include hname

theorem ne_bracket_of_mem {c : Char} (hc : c ∈ name.toList) : decide (c ≠ '[') = true :=
  decide_eq_true (hname c hc).2

theorem partSteps?_key : partSteps? name.toList = some [.key name] := by
  have htake : name.toList.takeWhile (· ≠ '[') = name.toList := by
    have happend := @List.takeWhile_append_of_pos _ (· ≠ '[') name.toList []
      fun c hc => ne_bracket_of_mem hname hc
    simpa using happend
  have hdrop : name.toList.dropWhile (· ≠ '[') = [] := by
    have happend := @List.dropWhile_append_of_pos _ (· ≠ '[') name.toList []
      fun c hc => ne_bracket_of_mem hname hc
    simpa using happend
  simp only [partSteps?, htake, hdrop, String.ofList_toList]

theorem partSteps?_indexed (n : Nat) :
    partSteps? (indexedPart name n) = some [.key name, .index n] := by
  have htake : (indexedPart name n).takeWhile (· ≠ '[') = name.toList := by
    rw [indexedPart, List.takeWhile_append_of_pos fun c hc => ne_bracket_of_mem hname hc]
    simp
  have hdrop : (indexedPart name n).dropWhile (· ≠ '[') =
      '[' :: (Nat.toDigits 10 n ++ [']']) := by
    rw [indexedPart, List.dropWhile_append_of_pos fun c hc => ne_bracket_of_mem hname hc]
    simp
  have hdigits : Text.digits? (Nat.toDigits 10 n ++ [']']) = some (Nat.toDigits 10 n, [']']) :=
    Text.digits?_append (Text.isDigits_toDigits n) (Text.endsDigits_cons rfl [])
  simp only [partSteps?, htake, hdrop, hdigits, Text.digitsValue_toDigits, String.ofList_toList]

theorem not_mem_key : '.' ∉ name.toList :=
  fun hmem => (hname _ hmem).1 rfl

theorem not_mem_indexedPart (n : Nat) : '.' ∉ indexedPart name n := by
  have hdigits : '.' ∉ Nat.toDigits 10 n := by
    intro hmem
    exact absurd (Text.isDigit_toDigits n _ hmem) (by decide)
  simp [indexedPart, not_mem_key hname, hdigits]

end Parts

def indexSteps (places : List (String × Nat)) : List PathStep :=
  places.flatMap fun (name, n) => [.key name, .index n]

theorem mapM_partSteps? {places : List (String × Nat)} {field : String}
    (hplaces : ∀ place ∈ places, IsPathKey place.1) (hfield : IsPathKey field) :
    ∃ steps, (places.map (fun (name, n) => indexedPart name n) ++ [field.toList]).mapM partSteps? =
      some steps ∧ steps.flatten = indexSteps places ++ [.key field] := by
  induction places with
  | nil => exact ⟨[[.key field]], by simp [partSteps?_key hfield], rfl⟩
  | cons place places ih =>
    obtain ⟨hplace, hplaces⟩ := List.forall_mem_cons.mp hplaces
    obtain ⟨steps, hsteps, hflatten⟩ := ih hplaces
    refine ⟨[.key place.1, .index place.2] :: steps, ?_, ?_⟩
    · simp [partSteps?_indexed hplace, hsteps]
    · simp [hflatten, indexSteps]

theorem pathSteps?_eq {path field : String} {places : List (String × Nat)}
    (hpath : path.toList = ['.'].intercalate
      (places.map (fun (name, n) => indexedPart name n) ++ [field.toList]))
    (hplaces : ∀ place ∈ places, IsPathKey place.1) (hfield : IsPathKey field) :
    pathSteps? path = some (indexSteps places ++ [.key field]) := by
  obtain ⟨steps, hsteps, hflatten⟩ := mapM_partSteps? hplaces hfield
  have hdots : ∀ part ∈ places.map (fun (name, n) => indexedPart name n) ++ [field.toList],
      '.' ∉ part := by
    intro part hpart
    rcases List.mem_append.mp hpart with hpart | hpart
    · obtain ⟨place, hplace, rfl⟩ := List.mem_map.mp hpart
      exact not_mem_indexedPart (hplaces place hplace) place.2
    · rw [List.mem_singleton.mp hpart]
      exact not_mem_key hfield
  rw [pathSteps?, hpath, List.splitOn_intercalate '.' hdots (by simp), hsteps, Option.map_some,
    hflatten]

example : pathSteps? "rules[12].value" = some [.key "rules", .index 12, .key "value"] := by
  decide

theorem place_key {name : String} (hname : IsPathKey name) (value : Json) :
    value.place name = value.follow [.key name] := by
  have hsteps : pathSteps? name = some [.key name] := by
    refine @pathSteps?_eq name name [] ?_ nofun hname
    simp [List.intercalate]
  simp only [place, hsteps]

end Json

namespace Shape

variable {τ δ ρ : Type}

def written? : {τ δ : Type} → Shape τ δ → τ → String → Option Json
  | _, _, .nil, (), _ => none
  | _, _, .cons member rest, (a, b), name =>
    if name = member.name && !member.isOmitted a then some (member.codec.write a)
    else rest.written? b name

theorem lookup_members (shape : Shape τ δ) (values : τ) (name : String) :
    (shape.members values).lookup name = shape.written? values name := by
  induction shape with
  | nil => rfl
  | cons member rest ih =>
    obtain ⟨a, b⟩ := values
    simp only [members, written?]
    cases member.isOmitted a with
    | true => simp [ih b]
    | false =>
      by_cases hname : name = member.name
      · simp [hname]
      · have hbeq : (name == member.name) = false := beq_false_of_ne hname
        simp [hname, List.lookup_cons, hbeq, ih b]

variable {shape : Shape τ δ} {values : ρ → τ} {make : τ → ρ} {record : ρ} {name : String}

theorem follow_codec {value : Json} (h : shape.written? (values record) name = some value)
    (rest : List Json.PathStep) :
    ((shape.codec values make).write record).follow (.key name :: rest) = value.follow rest :=
  Json.follow_key ((shape.lookup_members _ _).trans h)

theorem follow_codec_absent (h : shape.written? (values record) name = none) :
    ((shape.codec values make).write record).follow [.key name] = .absent :=
  Json.follow_absent ((shape.lookup_members _ _).trans h)

section Items

variable {α : Type} {codec : Codec α} {items : List α}
  (h : shape.written? (values record) name =
    if !items.isEmpty then some (codec.list.write items) else none)

include h

theorem follow_list : ((shape.codec values make).write record).follow [.key name] =
    if items.isEmpty then .absent else .value (codec.list.write items) := by
  cases items with
  | nil => exact follow_codec_absent h
  | cons first others => exact follow_codec h []

theorem follow_item {index : Nat} {a : α} (hitem : items[index]? = some a)
    (rest : List Json.PathStep) :
    ((shape.codec values make).write record).follow (.key name :: .index index :: rest) =
      (codec.write a).follow rest := by
  have hwritten : (items.map codec.write)[index]? = some (codec.write a) := by
    rw [List.getElem?_map, hitem, Option.map_some]
  rw [← Json.follow_index hwritten]
  apply follow_codec
  rw [h]
  cases items with
  | nil => cases hitem
  | cons first others => rfl

end Items

end Shape

end RightsPolicy
