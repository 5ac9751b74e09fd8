import RightsPolicy.Json.Codec

namespace RightsPolicy

structure Member (α : Type) where
  name : String
  codec : Codec α
  ifAbsent : Option α := none
  ifCutOff : Option α := none
  isOmitted : α → Bool := fun _ => false

namespace Member

def required {α : Type} (name : String) (codec : Codec α) : Member α :=
  { name, codec }

def withDefault {α : Type} (name : String) (codec : Codec α) (value : α) : Member α :=
  { name, codec, ifAbsent := some value, ifCutOff := some value }

def nullable {α : Type} (name : String) (codec : Codec α) : Member (Option α) :=
  { name, codec := codec.option, ifAbsent := some none }

def optional {α : Type} (name : String) (codec : Codec α) : Member (Option α) :=
  { withDefault name codec.option none with isOmitted := Option.isNone }

def listOf {α : Type} (name : String) (codec : Codec α) : Member (List α) :=
  { withDefault name codec.list [] with isOmitted := List.isEmpty }

end Member

inductive Shape : Type → Type → Type 1 where
  | nil : Shape Unit Unit
  | cons {α τ δ : Type} (member : Member α) (rest : Shape τ δ) : Shape (α × τ) (Option α × δ)

namespace Shape

variable {ρ : Type}

def start : {τ δ : Type} → Shape τ δ → δ
  | _, _, .nil => ()
  | _, _, .cons _ rest => (none, rest.start)

def take : {τ δ : Type} → Shape τ δ → δ → String → Json → Except Json.ReadError δ
  | _, _, .nil, (), _, value => if value.isWhole then .ok () else .error .malformed
  | _, _, .cons member rest, (slot, draft), name, value =>
    if name = member.name then
      match slot with
      | some _ => .error .mismatch
      | none => (member.codec.read value).map fun a => (some a, draft)
    else
      (rest.take draft name value).map fun draft => (slot, draft)

def takeAll {τ δ : Type} (shape : Shape τ δ) (draft : δ) :
    List (String × Json) → Except Json.ReadError δ
  | [] => .ok draft
  | (name, value) :: rest => do
    let draft ← shape.take draft name value
    shape.takeAll draft rest

def complete : {τ δ : Type} → Shape τ δ → δ → Except Json.ReadError τ
  | _, _, .nil, () => .ok ()
  | _, _, .cons member rest, (slot, draft) =>
    match slot <|> member.ifAbsent with
    | some a => (rest.complete draft).map fun b => (a, b)
    | none => .error .mismatch

def readItems : {τ δ : Type} → Shape τ δ → List Json → Except Json.ReadError τ
  | _, _, .nil, [] => .ok ()
  | _, _, .nil, _ :: _ => .error .mismatch
  | _, _, .cons member rest, [] =>
    match member.ifCutOff with
    | some a => (rest.readItems []).map fun b => (a, b)
    | none => .error .mismatch
  | _, _, .cons member rest, item :: items => do
    let a ← member.codec.read item
    let b ← rest.readItems items
    .ok (a, b)

def read {τ δ : Type} (shape : Shape τ δ) : Json → Except Json.ReadError τ
  | .object members => do
    let draft ← shape.takeAll shape.start members
    shape.complete draft
  | .misnamed members => do
    let _ ← shape.takeAll shape.start members
    .error .mismatch
  | .array items => shape.readItems items
  | value => .error value.unexpected

def members : {τ δ : Type} → Shape τ δ → τ → List (String × Json)
  | _, _, .nil, () => []
  | _, _, .cons member rest, (a, b) =>
    if member.isOmitted a then rest.members b
    else (member.name, member.codec.write a) :: rest.members b

def codec {τ δ : Type} (shape : Shape τ δ) (values : ρ → τ) (make : τ → ρ) : Codec ρ where
  write r := .object (shape.members (values r))
  read value := (shape.read value).map make

end Shape

end RightsPolicy
