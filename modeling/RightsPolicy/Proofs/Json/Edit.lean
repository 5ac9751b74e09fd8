import Mathlib.Logic.Relation
import RightsPolicy.Proofs.Json.Form

namespace RightsPolicy

variable {α τ δ : Type}

theorem Codec.readItems_congr {codec : Codec α} {value other : Json}
    (h : Concur (codec.read value) (codec.read other)) (front back : List Json) :
    Concur (codec.readItems (front ++ value :: back))
      (codec.readItems (front ++ other :: back)) := by
  induction front with
  | nil => exact h.bind fun a => .refl _
  | cons item front ih =>
    exact (Concur.refl (codec.read item)).bind fun a => ih.bind fun as => .refl _

def Form.Equates (form : Form) (value other : Json) : Prop :=
  ∀ (α : Type) (codec : Codec α), form.Describes codec →
    Concur (codec.read value) (codec.read other)

namespace Form

variable {members : List (String × Form)} {value other : Json}

theorem equates_of_isFlat {form : Form} (hflat : form.isFlat = true)
    (hvalue : value.hasParts = true) (hother : other.hasParts = true) :
    form.Equates value other := by
  intro α codec hdescribes
  have hcodec := hdescribes.isFlat hflat
  apply Concur.of_failing
  · intro a ha
    exact absurd hvalue (by simp [hcodec value a ha])
  · intro a ha
    exact absurd hother (by simp [hcodec other a ha])

theorem equates_of_not_isFlat {form : Form} (hflat : form.isFlat = false)
    (hvalue : value.hasParts = false) (hother : other.hasParts = false) :
    form.Equates value other := by
  intro α codec hdescribes
  apply Concur.of_failing
  · intro a ha
    exact absurd hvalue (by simp [hdescribes.hasParts hflat ha])
  · intro a ha
    exact absurd hother (by simp [hdescribes.hasParts hflat ha])

theorem DescribesMembers.readItems_congr {shape : Shape τ δ} (h : DescribesMembers members shape)
    (front back : List Json)
    (hpart : ∀ entry ∈ members[front.length]?, entry.2.Equates value other) :
    Concur (shape.readItems (front ++ value :: back))
      (shape.readItems (front ++ other :: back)) := by
  induction front generalizing members τ δ with
  | nil =>
    cases h with
    | nil => exact .of_failing nofun nofun
    | cons _ h _ => exact (hpart _ rfl _ _ h).bind fun a => .refl _
  | cons item front ih =>
    cases h with
    | nil => exact .refl _
    | @cons _ _ _ _ _ _ member _ _ _ hrest =>
      exact (Concur.refl (member.codec.read item)).bind fun a =>
        (ih hrest hpart).bind fun b => .refl _

theorem finds_congr {member : Member α}
    (h : Concur (member.codec.read value) (member.codec.read other))
    (front back : List Json) (a : α) :
    member.Finds (front ++ value :: back) a ↔ member.Finds (front ++ other :: back) a := by
  match front, back with
  | [], [] => exact h a
  | [], _ :: _ => rfl
  | [_], _ => rfl
  | _ :: _ :: _, _ => rfl

theorem DescribesMembers.readsFrom_congr {shape : Shape τ δ} (h : DescribesMembers members shape)
    (hnames : shape.names.Nodup) {name : String} (front back : List (String × Json))
    (hpart : ∀ form ∈ members.lookup name, form.Equates value other) (values : τ) :
    shape.ReadsFrom (front ++ (name, value) :: back) values ↔
      shape.ReadsFrom (front ++ (name, other) :: back) values := by
  induction members generalizing τ δ with
  | nil =>
    cases h
    rfl
  | cons entry members ih =>
    cases h with
    | @cons _ form _ _ _ _ member rest hmember h hrest =>
      subst hmember
      obtain ⟨a, b⟩ := values
      obtain ⟨hfresh, hnames⟩ := List.nodup_cons.mp hnames
      have hsame {wanted : String} (hne : name ≠ wanted) :
          Json.named wanted (front ++ (name, value) :: back) =
            Json.named wanted (front ++ (name, other) :: back) := by
        simp only [Json.named_append, Json.named_cons_of_ne hne]
      by_cases hname : name = member.name
      · subst hname
        have hread := hpart form (by simp) _ _ h
        have hothers := Shape.readsFrom_congr (fun wanted hmem => hsame (by
          rintro rfl
          exact hfresh hmem)) b
        simp only [Shape.ReadsFrom, hothers, Json.named_append, Json.named_cons_self,
          finds_congr hread]
      · have hlookup : ((member.name, form) :: members).lookup name = members.lookup name := by
          rw [List.lookup_cons, beq_false_of_ne hname]
        rw [hlookup] at hpart
        simp only [Shape.ReadsFrom, hsame hname, ih hrest hnames hpart b]

end Form

namespace Json

theorem membersAreWhole_append (front back : List (String × Json)) :
    membersAreWhole (front ++ back) = (membersAreWhole front && membersAreWhole back) := by
  induction front with
  | nil => simp [membersAreWhole]
  | cons entry front ih => simp [membersAreWhole, ih, Bool.and_assoc]

theorem areWhole_append (front back : List Json) :
    areWhole (front ++ back) = (areWhole front && areWhole back) := by
  induction front with
  | nil => simp [areWhole]
  | cons item front ih => simp [areWhole, ih, Bool.and_assoc]

structure Alike (forms : List Form) (value other : Json) : Prop where
  isWhole : value.isWhole = other.isWhole
  equates : ∀ form ∈ forms, form.Equates value other

namespace Alike

variable {forms : List Form} {value other last : Json}

theorem refl (forms : List Form) (value : Json) : Alike forms value value :=
  ⟨rfl, fun _ _ _ codec _ => .refl (codec.read value)⟩

theorem trans (h : Alike forms value other) (hlast : Alike forms other last) :
    Alike forms value last :=
  ⟨h.isWhole.trans hlast.isWhole, fun form hform _ _ hdescribes =>
    (h.equates form hform _ _ hdescribes).trans (hlast.equates form hform _ _ hdescribes)⟩

theorem array {front back : List Json}
    (h : Alike (forms.filterMap (Form.item? front.length)) value other) :
    Alike forms (.array (front ++ value :: back)) (.array (front ++ other :: back)) := by
  refine ⟨by simp only [Json.isWhole, areWhole_append, areWhole, h.isWhole], ?_⟩
  intro form hform
  have hitem : ∀ part ∈ form.item? front.length, part.Equates value other := fun part hpart =>
    h.equates part (List.mem_filterMap.mpr ⟨form, hform, hpart⟩)
  cases hflat : form.isFlat with
  | true => exact Form.equates_of_isFlat hflat rfl rfl
  | false =>
    intro α codec hdescribes
    cases hdescribes with
    | list hdescribes => exact Codec.readItems_congr (hitem _ rfl _ _ hdescribes) front back
    | record _ hdescribes =>
      refine (hdescribes.readItems_congr front back ?_).map _
      intro entry hentry
      exact hitem entry.2 (Option.mem_map_of_mem Prod.snd hentry)
    | _ => cases hflat

theorem of_objects {given others : List (String × Json)}
    (hwhole : membersAreWhole given = membersAreWhole others)
    (hread : ∀ members, .record members ∈ forms → ∀ (τ δ : Type) (shape : Shape τ δ),
      shape.names.Nodup → Form.DescribesMembers members shape →
        Concur (shape.read (.object given)) (shape.read (.object others))) :
    Alike forms (.object given) (.object others) := by
  refine ⟨hwhole, ?_⟩
  intro form hform
  cases hflat : form.isFlat with
  | true => exact Form.equates_of_isFlat hflat rfl rfl
  | false =>
    intro α codec hdescribes
    cases hdescribes with
    | list => exact .of_failing nofun nofun
    | record hnames hmembers => exact (hread _ hform _ _ _ hnames hmembers).map _
    | _ => cases hflat

theorem object {name : String} {front back : List (String × Json)}
    (h : Alike (forms.filterMap (Form.member? name)) value other) :
    Alike forms (.object (front ++ (name, value) :: back))
      (.object (front ++ (name, other) :: back)) := by
  apply of_objects
  · simp only [membersAreWhole_append, membersAreWhole, h.isWhole]
  · intro members hmem τ δ shape hnames hmembers values
    have hmember : ∀ part ∈ members.lookup name, part.Equates value other := fun part hpart =>
      h.equates part (List.mem_filterMap.mpr ⟨.record members, hmem, hpart⟩)
    rw [Shape.read_object_iff hnames, Shape.read_object_iff hnames,
      hmembers.readsFrom_congr hnames front back hmember values]
    simp only [List.mem_append, List.mem_cons, or_imp, forall_and, forall_eq, h.isWhole]

end Alike

inductive Edited (edit : List Form → Json → Json → Prop) : List Form → Json → Json → Prop
  | here {forms value other} (h : edit forms value other) : Edited edit forms value other
  | member {forms name front value other back}
      (h : Edited edit (forms.filterMap (Form.member? name)) value other) :
      Edited edit forms (.object (front ++ (name, value) :: back))
        (.object (front ++ (name, other) :: back))
  | item {forms front value other back}
      (h : Edited edit (forms.filterMap (Form.item? front.length)) value other) :
      Edited edit forms (.array (front ++ value :: back)) (.array (front ++ other :: back))

end Json

namespace Form

inductive Clash : Form → Form → Prop
  | here {form other} (hform : form.isFlat = true) (hother : other.isFlat = true)
      (hne : form ≠ other) : Clash form other
  | member {form other part otherPart} (name : String) (hform : form.member? name = some part)
      (hother : other.member? name = some otherPart) (h : Clash part otherPart) : Clash form other
  | item {form other part otherPart} (index : Nat) (hform : form.item? index = some part)
      (hother : other.item? index = some otherPart) (h : Clash part otherPart) : Clash form other

theorem Clash.ne {form other : Form} (h : Clash form other) : form ≠ other := by
  induction h with
  | here _ _ hne => exact hne
  | member name hform hother _ ih =>
    rintro rfl
    exact ih (Option.some_inj.mp (hform.symm.trans hother))
  | item index hform hother _ ih =>
    rintro rfl
    exact ih (Option.some_inj.mp (hform.symm.trans hother))

theorem Clash.symm {form other : Form} (h : Clash form other) : Clash other form := by
  induction h with
  | here hform hother hne => exact .here hother hform hne.symm
  | member name hform hother _ ih => exact .member name hother hform ih
  | item index hform hother _ ih => exact .item index hother hform ih

theorem isFlat_of_member? {form part : Form} {name : String} (h : form.member? name = some part) :
    form.isFlat = false := by
  cases form with
  | list => rfl
  | record => rfl
  | _ => cases h

theorem isFlat_of_item? {form part : Form} {index : Nat} (h : form.item? index = some part) :
    form.isFlat = false := by
  cases form with
  | list => rfl
  | record => rfl
  | _ => cases h

theorem Clash.isFlat_eq {form other : Form} (h : Clash form other) :
    form.isFlat = other.isFlat := by
  cases h with
  | here hform hother => rw [hform, hother]
  | member _ hform hother => rw [isFlat_of_member? hform, isFlat_of_member? hother]
  | item _ hform hother => rw [isFlat_of_item? hform, isFlat_of_item? hother]

theorem not_clash_list {form other : Form} (h : ¬ Clash form other) :
    ¬ Clash (.list form) (.list other) := by
  intro hclash
  cases hclash with
  | here hflat => cases hflat
  | member name hmember => cases hmember
  | item index hform hother hpart =>
    cases hform
    cases hother
    exact h hpart

theorem not_clash_record {members others : List (String × Form)}
    (hnames : ∀ name ∈ members.map Prod.fst, name ∉ others.map Prod.fst)
    (hitems : ∀ pair ∈ (members.map Prod.snd).zip (others.map Prod.snd), ¬ Clash pair.1 pair.2) :
    ¬ Clash (.record members) (.record others) := by
  intro hclash
  cases hclash with
  | here hflat => cases hflat
  | member name hform hother =>
    refine hnames name ?_ ?_
    · obtain ⟨front, back, rfl, -⟩ := List.lookup_eq_some_iff.mp hform
      simp
    · obtain ⟨front, back, rfl, -⟩ := List.lookup_eq_some_iff.mp hother
      simp
  | item index hform hother hpart =>
    have hboth := And.intro hform hother
    simp only [item?, ← List.getElem?_map] at hboth
    exact hitems (_, _) (List.mem_of_getElem? (List.getElem?_zip_eq_some.mpr hboth)) hpart

def Clear (forms : List Form) : Prop :=
  ∀ form ∈ forms, ∀ other ∈ forms, ¬ Clash form other

theorem clear_pair {form other : Form} (h : ¬ Clash form other) : Clear [form, other] := by
  intro first hfirst second hsecond hclash
  have hne := hclash.ne
  simp only [List.mem_cons, List.not_mem_nil, or_false] at hfirst hsecond
  rcases hfirst with rfl | rfl <;> rcases hsecond with rfl | rfl
  · exact hne rfl
  · exact h hclash
  · exact h hclash.symm
  · exact hne rfl

namespace Clear

variable {forms : List Form}

theorem member (h : Clear forms) (name : String) : Clear (forms.filterMap (Form.member? name)) := by
  intro part hpart otherPart hotherPart hclash
  obtain ⟨form, hform, hpart⟩ := List.mem_filterMap.mp hpart
  obtain ⟨other, hother, hotherPart⟩ := List.mem_filterMap.mp hotherPart
  exact h form hform other hother (.member name hpart hotherPart hclash)

theorem item (h : Clear forms) (index : Nat) : Clear (forms.filterMap (Form.item? index)) := by
  intro part hpart otherPart hotherPart hclash
  obtain ⟨form, hform, hpart⟩ := List.mem_filterMap.mp hpart
  obtain ⟨other, hother, hotherPart⟩ := List.mem_filterMap.mp hotherPart
  exact h form hform other hother (.item index hpart hotherPart hclash)

theorem eq_of_isFlat (h : Clear forms) {form other : Form} (hform : form ∈ forms)
    (hother : other ∈ forms) (hflat : form.isFlat = true) (hotherFlat : other.isFlat = true) :
    form = other := by
  by_contra hne
  exact h form hform other hother (.here hflat hotherFlat hne)

end Clear

end Form

namespace Json

variable {edit : List Form → Json → Json → Prop} {forms : List Form} {value other : Json}

theorem Alike.of_isFlat (hclear : Form.Clear forms) {form : Form} (hform : form ∈ forms)
    (hflat : form.isFlat = true) (hwhole : value.isWhole = other.isWhole)
    (hvalue : value.hasParts = false) (hother : other.hasParts = false)
    (h : form.Equates value other) : Alike forms value other := by
  refine ⟨hwhole, ?_⟩
  intro found hfound
  cases hfoundFlat : found.isFlat with
  | true =>
    cases hclear.eq_of_isFlat hfound hform hfoundFlat hflat
    exact h
  | false => exact Form.equates_of_not_isFlat hfoundFlat hvalue hother

theorem Edited.alike
    (hedit : ∀ forms value other, Form.Clear forms → edit forms value other →
      Alike forms value other)
    (hclear : Form.Clear forms) (h : Edited edit forms value other) : Alike forms value other := by
  induction h with
  | here h => exact hedit _ _ _ hclear h
  | member _ ih => exact (ih (hclear.member _)).object
  | item _ ih => exact (ih (hclear.item _)).array

theorem alike_of_edits
    (hedit : ∀ forms value other, Form.Clear forms → edit forms value other →
      Alike forms value other)
    (hclear : Form.Clear forms) (h : Relation.ReflTransGen (Edited edit forms) value other) :
    Alike forms value other := by
  induction h with
  | refl => exact .refl forms value
  | tail _ hlast ih => exact ih.trans (hlast.alike hedit hclear)

end Json

end RightsPolicy
