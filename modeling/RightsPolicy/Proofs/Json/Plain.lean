import RightsPolicy.Proofs.Json.Spelling

namespace RightsPolicy.Json

inductive Plain : Nat → Json → Prop where
  | null {depth} : Plain depth .null
  | bool {depth} (b : Bool) : Plain depth (.bool b)
  | integer {depth n} (h : IsWord n) : Plain depth (.integer n)
  | text {depth} (s : String) : Plain depth (.text s)
  | array {depth items} (h : ∀ item ∈ items, Plain depth item) : Plain (depth + 1) (.array items)
  | object {depth members} (h : ∀ member ∈ members, Plain depth member.2) :
      Plain (depth + 1) (.object members)

namespace Plain

variable {depth : Nat}

@[simp]
theorem null_iff : Plain depth .null ↔ True :=
  iff_of_true .null trivial

@[simp]
theorem bool_iff {b : Bool} : Plain depth (.bool b) ↔ True :=
  iff_of_true (.bool b) trivial

@[simp]
theorem integer_iff {n : Int} : Plain depth (.integer n) ↔ IsWord n := by
  refine ⟨fun h => ?_, .integer⟩
  cases h
  assumption

@[simp]
theorem text_iff {s : String} : Plain depth (.text s) ↔ True :=
  iff_of_true (.text s) trivial

@[simp]
theorem array_iff {items : List Json} :
    Plain (depth + 1) (.array items) ↔ ∀ item ∈ items, Plain depth item := by
  refine ⟨fun h => ?_, .array⟩
  cases h
  assumption

@[simp]
theorem object_iff {members : List (String × Json)} :
    Plain (depth + 1) (.object members) ↔ ∀ member ∈ members, Plain depth member.2 := by
  refine ⟨fun h => ?_, .object⟩
  cases h
  assumption

theorem isReadable {value : Json} (h : Plain depth value) : value.isReadable = true := by
  induction h with
  | array _ ih => exact (areReadable_iff _).mpr ih
  | object _ ih => exact (membersAreReadable_iff _).mpr ih
  | _ => rfl

end Plain

theorem blanks_nil : Blanks [] :=
  nofun

theorem blanks_lineBreak (layout : Layout) (depth : Nat) : Blanks (layout.lineBreak depth) := by
  cases layout with
  | compact => exact blanks_nil
  | indented =>
    intro c hc
    rcases List.mem_cons.mp hc with rfl | hc
    · rfl
    · rw [(List.mem_replicate.mp hc).2]
      rfl

theorem spells_quotedChars {depth : Nat} (s : String) : Spells depth (quotedChars s) (.text s) := by
  have h := @Spells.text depth _ _ (Quoted.spells_encode s.toList)
  rwa [String.ofList_toList] at h

variable {depth : Nat}

def IsSpelled (depth : Nat) (value : Json) : Prop :=
  ∀ (layout : Layout) (indent : Nat), Spells depth (value.chars layout indent) value

def spelledItem (layout : Layout) (indent : Nat) (item : Json) : List Char × Json :=
  (layout.lineBreak indent ++ item.chars layout indent, item)

theorem restChars_eq (layout : Layout) (indent : Nat) (items : List Json) :
    restChars layout indent items =
      (items.map (spelledItem layout indent)).flatMap fun item => ',' :: item.1 := by
  induction items with
  | nil => rfl
  | cons item items ih => simp [restChars, ih, spelledItem]

theorem isSpelled_array {items : List Json} (h : ∀ item ∈ items, IsSpelled depth item) :
    IsSpelled (depth + 1) (.array items) := by
  intro layout indent
  have hitem : ∀ item ∈ items, Spells depth (spelledItem layout (indent + 1) item).1 item :=
    fun item hmem => .blanksBefore (blanks_lineBreak layout _) (h item hmem layout _)
  cases items with
  | nil => exact .emptyArray blanks_nil
  | cons item items =>
    obtain ⟨hfirst, hitems⟩ := List.forall_mem_cons.mp hitem
    have hspells := @Spells.array depth _ (spelledItem layout (indent + 1) item)
      (items.map (spelledItem layout (indent + 1))) hfirst (List.forall_mem_map.mpr hitems)
      (blanks_lineBreak layout indent)
    rw [List.map_map, ← restChars_eq] at hspells
    simpa [chars, spelledItem, Function.comp_def] using hspells

def spelledMember (layout : Layout) (indent : Nat) (member : String × Json) : SpelledMember where
  nameChars := layout.lineBreak indent ++ quotedChars member.1
  name := member.1
  valueChars := layout.colon.tail ++ member.2.chars layout indent
  value := member.2

theorem spelledMember_chars (layout : Layout) (indent : Nat) (member : String × Json) :
    (spelledMember layout indent member).chars =
      layout.lineBreak indent ++ quotedChars member.1 ++ layout.colon ++
        member.2.chars layout indent := by
  cases layout <;> simp [SpelledMember.chars, spelledMember, Layout.colon]

theorem restMemberChars_eq (layout : Layout) (indent : Nat) (members : List (String × Json)) :
    restMemberChars layout indent members =
      (members.map (spelledMember layout indent)).flatMap fun member => ',' :: member.chars := by
  induction members with
  | nil => rfl
  | cons member members ih => simp [restMemberChars, ih, spelledMember_chars]

theorem isSpelled_object {members : List (String × Json)}
    (h : ∀ member ∈ members, IsSpelled depth member.2) :
    IsSpelled (depth + 1) (.object members) := by
  intro layout indent
  have hname (member : String × Json) :
      Spells 0 (spelledMember layout (indent + 1) member).nameChars (.text member.1) :=
    .blanksBefore (blanks_lineBreak layout _) (spells_quotedChars member.1)
  have hvalue : ∀ member ∈ members,
      Spells depth (spelledMember layout (indent + 1) member).valueChars member.2 := by
    intro member hmem
    refine .blanksBefore ?_ (h member hmem layout _)
    cases layout <;> decide
  cases members with
  | nil => exact .emptyObject blanks_nil
  | cons member members =>
    obtain ⟨hfirst, hmembers⟩ := List.forall_mem_cons.mp hvalue
    have hspells := @Spells.object depth _ (spelledMember layout (indent + 1) member)
      (members.map (spelledMember layout (indent + 1))) (hname member) hfirst
      (List.forall_mem_map.mpr fun member _ => hname member) (List.forall_mem_map.mpr hmembers)
      (blanks_lineBreak layout indent)
    rw [List.map_map, ← restMemberChars_eq, spelledMember_chars] at hspells
    simpa [chars, Function.comp_def, spelledMember, SpelledMember.entry] using hspells

theorem Plain.isSpelled {value : Json} (h : Plain depth value) : IsSpelled depth value := by
  induction h with
  | null => exact fun _ _ => .null
  | bool b =>
    intro layout indent
    have hspells := fun depth => @Spells.bool depth b
    cases b <;> exact hspells _
  | integer hword => exact fun _ _ => .integer hword
  | text s => exact fun _ _ => spells_quotedChars s
  | array _ ih => exact isSpelled_array ih
  | object _ ih => exact isSpelled_object ih

theorem Plain.spelledBy {value : Json} (h : Plain Frame.depthLimit value) (layout : Layout) :
    value.SpelledBy (value.render layout) := by
  have hspells := h.isSpelled layout 0
  rwa [SpelledBy, render, String.toList_ofList]

theorem ofText_render_append {value : Json} (h : Plain depth value)
    (hdepth : depth ≤ Frame.depthLimit) (layout : Layout) {blanks : List Char}
    (hblanks : Blanks blanks) :
    Json.ofText (value.render layout ++ String.ofList blanks) = ⟨value, []⟩ := by
  have hspells := Spells.blanksAfter hblanks (h.isSpelled layout 0)
  refine ofText_of_spells ?_ hdepth
  rwa [render, String.toList_append, String.toList_ofList, String.toList_ofList]

theorem ofText_render {value : Json} (h : Plain depth value) (hdepth : depth ≤ Frame.depthLimit)
    (layout : Layout) : Json.ofText (value.render layout) = ⟨value, []⟩ := by
  have hread := ofText_render_append h hdepth layout blanks_nil
  rwa [String.ofList_nil, String.append_empty] at hread

end RightsPolicy.Json
