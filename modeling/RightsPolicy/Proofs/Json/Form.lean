import RightsPolicy.Proofs.Json.Members

namespace RightsPolicy

inductive Form where
  | leaf
  | scalar
  | time
  | list (item : Form)
  | record (members : List (String × Form))

def Json.hasParts : Json → Bool
  | .array _ => true
  | .object _ => true
  | .misnamed _ => true
  | _ => false

namespace Form

def names : Form → List String
  | .record members => members.map Prod.fst
  | _ => []

def member? (name : String) : Form → Option Form
  | .record members => members.lookup name
  | _ => none

def item? (index : Nat) : Form → Option Form
  | .list item => some item
  | .record members => members[index]?.map Prod.snd
  | _ => none

def isFlat : Form → Bool
  | .list _ => false
  | .record _ => false
  | _ => true

end Form

variable {α τ δ ρ : Type}

def Codec.IsFlat (codec : Codec α) : Prop :=
  ∀ value a, codec.read value = .ok a → value.hasParts = false

mutual

inductive Form.Describes : Form → {α : Type} → Codec α → Prop
  | leaf {α : Type} {codec : Codec α} (h : codec.IsFlat) : Describes .leaf codec
  | scalar : Describes .scalar Codec.scalar
  | time : Describes .time Codec.timestamp.option
  | list {item : Form} {α : Type} {codec : Codec α} (h : Describes item codec) :
      Describes (.list item) codec.list
  | record {members : List (String × Form)} {ρ τ δ : Type} {shape : Shape τ δ} {values : ρ → τ}
      {make : τ → ρ} (hnames : shape.names.Nodup) (h : DescribesMembers members shape) :
      Describes (.record members) (shape.codec values make)

inductive Form.DescribesMembers : List (String × Form) → {τ δ : Type} → Shape τ δ → Prop
  | nil : DescribesMembers [] .nil
  | cons {name : String} {form : Form} {members : List (String × Form)} {α τ δ : Type}
      {member : Member α} {rest : Shape τ δ} (hname : member.name = name)
      (h : Describes form member.codec) (hrest : DescribesMembers members rest) :
      DescribesMembers ((name, form) :: members) (.cons member rest)

end

namespace Codec

theorem isFlat_text : text.IsFlat := by
  intro value s h
  cases value <;> cases h
  rfl

theorem isFlat_flag : flag.IsFlat := by
  intro value b h
  cases value <;> cases h
  rfl

theorem isFlat_word64 : word64.IsFlat := by
  intro value n h
  cases value with
  | integer => rfl
  | _ => cases h

theorem isFlat_int32 : int32.IsFlat := by
  intro value n h
  cases value with
  | integer => rfl
  | _ => cases h

theorem isFlat_timestamp : timestamp.IsFlat := by
  intro value t h
  cases value with
  | text => rfl
  | _ => cases h

theorem isFlat_scalar : scalar.IsFlat := by
  intro value s h
  cases value with
  | array => cases h
  | object => cases h
  | misnamed => cases h
  | _ => rfl

theorem IsFlat.option {codec : Codec α} (h : codec.IsFlat) : codec.option.IsFlat := by
  intro value a hread
  cases value with
  | null => rfl
  | _ =>
    obtain ⟨b, hb, -⟩ := map_eq_ok_iff.mp hread
    exact h _ b hb

end Codec

namespace Form

theorem Describes.isFlat {form : Form} {codec : Codec α} (h : form.Describes codec)
    (hflat : form.isFlat = true) : codec.IsFlat := by
  cases h with
  | leaf h => exact h
  | scalar => exact Codec.isFlat_scalar
  | time => exact Codec.isFlat_timestamp.option
  | list => cases hflat
  | record => cases hflat

theorem Describes.hasParts {form : Form} {codec : Codec α} (h : form.Describes codec)
    (hflat : form.isFlat = false) {value : Json} {a : α} (hread : codec.read value = .ok a) :
    value.hasParts = true := by
  cases h with
  | leaf => cases hflat
  | scalar => cases hflat
  | time => cases hflat
  | list =>
    cases value with
    | array => rfl
    | _ => cases hread
  | record =>
    obtain ⟨values, hread, -⟩ := map_eq_ok_iff.mp hread
    cases value with
    | array => rfl
    | object => rfl
    | misnamed => rfl
    | _ => cases hread

-- The list of forms is what tells the cases apart: the types of a shape do not.
theorem DescribesMembers.names_eq {members : List (String × Form)} {shape : Shape τ δ}
    (h : DescribesMembers members shape) : members.map Prod.fst = shape.names := by
  induction members generalizing τ δ with
  | nil =>
    cases h
    rfl
  | cons entry members ih =>
    cases h with
    | cons hname _ hrest => exact congrArg₂ List.cons hname.symm (ih hrest)

end Form

def Form.Fits (form : Form) (value : Json) : Prop :=
  ∃ (α : Type) (codec : Codec α) (a : α), form.Describes codec ∧ codec.read value = .ok a

inductive Json.Holds : Form → Json → Form → Json → Prop
  | here {form value} : Holds form value form value
  | field {members index name inner value field part found}
      (hentry : members[index]? = some (name, inner)) (hfield : value.HasField index name field)
      (h : Holds inner field part found) : Holds (.record members) value part found
  | item {inner items item part found} (hitem : item ∈ items) (h : Holds inner item part found) :
      Holds (.list inner) (.array items) part found

theorem Codec.exists_read_of_readItems {codec : Codec α} {items : List Json} {as : List α}
    (h : codec.readItems items = .ok as) {item : Json} (hitem : item ∈ items) :
    ∃ a, codec.read item = .ok a := by
  induction items generalizing as with
  | nil => cases hitem
  | cons first items ih =>
    obtain ⟨a, ha, h⟩ := bind_eq_ok_iff.mp h
    obtain ⟨as, has, -⟩ := bind_eq_ok_iff.mp h
    rcases List.mem_cons.mp hitem with rfl | hitem
    · exact ⟨a, ha⟩
    · exact ih has hitem

namespace Form

theorem DescribesMembers.fits {members : List (String × Form)} {shape : Shape τ δ}
    (h : DescribesMembers members shape) {value : Json} {start : Nat} {values : τ}
    (hreads : shape.ReadsFields value start values) {index : Nat} {name : String} {inner : Form}
    (hentry : members[index]? = some (name, inner)) {field : Json}
    (hfield : value.HasField (start + index) name field) : inner.Fits field := by
  induction members generalizing τ δ start index with
  | nil => cases hentry
  | cons entry members ih =>
    cases h with
    | @cons _ _ _ α _ _ member _ hname h hrest =>
      subst hname
      obtain ⟨a, b⟩ := values
      obtain ⟨hread, hreads⟩ := hreads
      cases index with
      | zero =>
        cases hentry
        exact ⟨α, member.codec, a, h, hread field hfield⟩
      | succ index =>
        rw [← Nat.add_assoc, Nat.add_right_comm] at hfield
        exact ih hrest hreads hentry hfield

theorem Fits.of_holds {form part : Form} {value found : Json} (hfits : form.Fits value)
    (h : Json.Holds form value part found) : part.Fits found := by
  induction h with
  | here => exact hfits
  | field hentry hfield _ ih =>
    obtain ⟨α, codec, a, hdescribes, hread⟩ := hfits
    cases hdescribes with
    | record hnames hmembers =>
      obtain ⟨values, hread, -⟩ := map_eq_ok_iff.mp hread
      refine ih (hmembers.fits (Shape.readsFields_of_read hnames hread) hentry ?_)
      rwa [Nat.zero_add]
  | item hitem _ ih =>
    obtain ⟨_, _, as, hdescribes, hread⟩ := hfits
    cases hdescribes with
    | @list _ α codec hdescribes =>
      obtain ⟨a, ha⟩ := Codec.exists_read_of_readItems hread hitem
      exact ih ⟨α, codec, a, hdescribes, ha⟩

theorem Fits.hasParts {form : Form} {value : Json} (h : form.Fits value)
    (hflat : form.isFlat = true) : value.hasParts = false := by
  obtain ⟨α, codec, a, hdescribes, hread⟩ := h
  exact hdescribes.isFlat hflat value a hread

end Form

end RightsPolicy
