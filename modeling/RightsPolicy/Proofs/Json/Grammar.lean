import RightsPolicy.Proofs.Json.Scanned

namespace RightsPolicy.Json

inductive Acts (rest : List Token) : List Frame → Expect → Token → Reading → Prop
  | scalar {frames expect value} (h : expect.takesValue) :
      Acts rest frames expect (.scalar value) (resume frames value rest)
  | surrogate {frames expect} (h : expect.takesValue) :
      Acts rest frames expect .surrogate (resume frames .unreadable rest)
  | openArray {frames expect} (h : expect.takesValue) :
      Acts rest frames expect .openArray (readOn (.array [] :: frames) .item rest)
  | openObject {frames expect} (h : expect.takesValue) :
      Acts rest frames expect .openObject (readOn (.object [] "" :: frames) .member rest)
  | closeArray {items frames expect} (h : expect = .item ∨ expect = .next) :
      Acts rest (.array items :: frames) expect .closeArray
        (resume frames (limited (.array items :: frames) (.array items.reverse)) rest)
  | closeObject {members last frames expect} (h : expect = .member ∨ expect = .next) :
      Acts rest (.object members last :: frames) expect .closeObject
        (resume frames (limited (.object members last :: frames) (.object members.reverse)) rest)
  | closeMisnamed {members frames} :
      Acts rest (.misnamed members :: frames) .next .closeObject
        (resume frames (limited (.misnamed members :: frames) (.misnamed members.reverse)) rest)
  | commaArray {items frames} :
      Acts rest (.array items :: frames) .next .comma (readOn (.array items :: frames) .value rest)
  | commaObject {members last frames} :
      Acts rest (.object members last :: frames) .next .comma
        (readOn (.object members last :: frames) .name rest)
  | name {members last frames expect name} (h : expect = .member ∨ expect = .name) :
      Acts rest (.object members last :: frames) expect (.scalar (.text name))
        (readOn (.object members name :: frames) .colon rest)
  | surrogateName {members last frames expect} (h : expect = .member ∨ expect = .name) :
      Acts rest (.object members last :: frames) expect .surrogate
        (readOn (.misnamed members :: frames) .colon rest)
  | misnamed {members frames expect token after} :
      Acts rest (.misnamed members :: frames) expect token
        (readOn (.misnamed members :: frames) after rest)
  | colon {frames} : Acts rest frames .colon .colon (readOn frames .value rest)
  | breakOff {frames expect token} : Acts rest frames expect token (breakOff frames)

theorem acts (frames : List Frame) (expect : Expect) (token : Token) (rest : List Token) :
    Acts rest frames expect token (readOn frames expect (token :: rest)) := by
  cases expect with
  | value =>
    cases token with
    | scalar value =>
      rw [readOn_scalar frames (.inl rfl)]
      exact .scalar (.inl rfl)
    | surrogate => rcases frames with _ | ⟨_, _⟩ <;> exact .surrogate (.inl rfl)
    | openArray =>
      rw [readOn_openArray frames (.inl rfl)]
      exact .openArray (.inl rfl)
    | openObject =>
      rw [readOn_openObject frames (.inl rfl)]
      exact .openObject (.inl rfl)
    | _ => rcases frames with _ | ⟨_ | _ | _, _⟩ <;> exact .breakOff
  | item =>
    cases token with
    | scalar value =>
      rw [readOn_scalar frames (.inr rfl)]
      exact .scalar (.inr rfl)
    | surrogate => rcases frames with _ | ⟨_, _⟩ <;> exact .surrogate (.inr rfl)
    | openArray =>
      rw [readOn_openArray frames (.inr rfl)]
      exact .openArray (.inr rfl)
    | openObject =>
      rw [readOn_openObject frames (.inr rfl)]
      exact .openObject (.inr rfl)
    | closeArray =>
      rcases frames with _ | ⟨_ | _ | _, _ | ⟨_, _⟩⟩ <;> first
        | exact .closeArray (.inl rfl)
        | exact .breakOff
    | _ => rcases frames with _ | ⟨_ | _ | _, _⟩ <;> exact .breakOff
  | name =>
    cases token with
    | scalar value =>
      cases value <;> rcases frames with _ | ⟨_ | _ | _, _⟩ <;> first
        | exact .name (.inr rfl)
        | exact .misnamed
        | exact .breakOff
    | surrogate =>
      rcases frames with _ | ⟨_ | _ | _, _⟩ <;> first
        | exact .surrogateName (.inr rfl)
        | exact .misnamed
        | exact .breakOff
    | _ => rcases frames with _ | ⟨_ | _ | _, _⟩ <;> exact .breakOff
  | member =>
    cases token with
    | scalar value =>
      cases value <;> rcases frames with _ | ⟨_ | _ | _, _⟩ <;> first
        | exact .name (.inl rfl)
        | exact .breakOff
    | surrogate =>
      rcases frames with _ | ⟨_ | _ | _, _⟩ <;> first
        | exact .surrogateName (.inl rfl)
        | exact .breakOff
    | closeObject =>
      rcases frames with _ | ⟨_ | _ | _, _ | ⟨_, _⟩⟩ <;> first
        | exact .closeObject (.inl rfl)
        | exact .breakOff
    | _ => rcases frames with _ | ⟨_ | _ | _, _⟩ <;> exact .breakOff
  | colon =>
    cases token with
    | colon => rcases frames with _ | ⟨_ | _ | _, _⟩ <;> exact .colon
    | _ => rcases frames with _ | ⟨_ | _ | _, _⟩ <;> exact .breakOff
  | next =>
    cases token with
    | comma =>
      rcases frames with _ | ⟨_ | _ | _, _⟩ <;> first
        | exact .commaArray
        | exact .commaObject
        | exact .misnamed
        | exact .breakOff
    | closeArray =>
      rcases frames with _ | ⟨_ | _ | _, _ | ⟨_, _⟩⟩ <;> first
        | exact .closeArray (.inr rfl)
        | exact .breakOff
    | closeObject =>
      rcases frames with _ | ⟨_ | _ | _, _ | ⟨_, _⟩⟩ <;> first
        | exact .closeObject (.inr rfl)
        | exact .closeMisnamed
        | exact .breakOff
    | _ => rcases frames with _ | ⟨_ | _ | _, _⟩ <;> exact .breakOff

def Frame.isReadable : Frame → Bool
  | .array items => areReadable items
  | .object members _ => membersAreReadable members
  | .misnamed _ => false

theorem Frame.isReadable_of_add {frame : Frame} {value : Json}
    (h : (frame.add value).isReadable = true) :
    frame.isReadable = true ∧ value.isReadable = true := by
  cases frame with
  | array items => exact (Bool.and_eq_true_iff.mp h).symm
  | object members name => exact (Bool.and_eq_true_iff.mp h).symm
  | misnamed members => cases h

theorem Frame.isReadable_close {frame : Frame} {value : Json} (h : value.isReadable = false) :
    (frame.close value).isReadable = false := by
  rw [Bool.eq_false_iff] at h ⊢
  intro hclose
  cases frame with
  | array items => exact h ((areReadable_iff _).mp hclose value (by simp))
  | object members name =>
    exact h ((membersAreReadable_iff _).mp hclose (name, value) (by simp))
  | misnamed members => exact h ((membersAreReadable_iff _).mp hclose ("", value) (by simp))

theorem isReadable_breakOff (frames : List Frame) :
    (breakOff frames).value.isReadable = false := by
  have hfold (value : Json) (h : value.isReadable = false) :
      (frames.foldl (fun value frame => frame.close value) value).isReadable = false := by
    induction frames generalizing value with
    | nil => exact h
    | cons frame frames ih => exact ih _ (Frame.isReadable_close h)
  exact hfold .broken rfl

theorem isReadable_limited {frames : List Frame} {value : Json}
    (h : (limited frames value).isReadable = true) :
    frames.length ≤ Frame.depthLimit ∧ value.isReadable = true := by
  unfold limited at h
  split at h
  · exact ⟨‹_›, h⟩
  · cases h

theorem isReadable_reverse_items {items : List Json}
    (h : (Json.array items.reverse).isReadable = true) : areReadable items = true := by
  rw [areReadable_iff]
  intro item hitem
  exact (areReadable_iff _).mp h item (List.mem_reverse.mpr hitem)

theorem isReadable_reverse_members {members : List (String × Json)}
    (h : (Json.object members.reverse).isReadable = true) :
    membersAreReadable members = true := by
  rw [membersAreReadable_iff]
  intro member hmember
  exact (membersAreReadable_iff _).mp h member (List.mem_reverse.mpr hmember)

theorem isReadable_of_readOn {frames : List Frame} {expect : Expect} {tokens : List Token}
    (h : (readOn frames expect tokens).value.isReadable = true) :
    ∀ frame ∈ frames, frame.isReadable = true := by
  induction tokens generalizing frames expect with
  | nil =>
    rw [readOn, isReadable_breakOff] at h
    cases h
  | cons token rest ih =>
    have hresume {frames : List Frame} {value : Json}
        (h : (resume frames value rest).value.isReadable = true) :
        value.isReadable = true ∧ ∀ frame ∈ frames, frame.isReadable = true := by
      cases frames with
      | nil => exact ⟨h, nofun⟩
      | cons frame outer =>
        obtain ⟨hframe, houter⟩ := List.forall_mem_cons.mp (ih h)
        obtain ⟨hframe, hvalue⟩ := Frame.isReadable_of_add hframe
        exact ⟨hvalue, List.forall_mem_cons.mpr ⟨hframe, houter⟩⟩
    have hacts := acts frames expect token rest
    generalize readOn frames expect (token :: rest) = reading at h hacts
    cases hacts with
    | scalar => exact (hresume h).2
    | surrogate => exact (hresume h).2
    | openArray => exact (List.forall_mem_cons.mp (ih h)).2
    | openObject => exact (List.forall_mem_cons.mp (ih h)).2
    | closeArray =>
      obtain ⟨hvalue, houter⟩ := hresume h
      have hitems := isReadable_reverse_items (isReadable_limited hvalue).2
      exact List.forall_mem_cons.mpr ⟨hitems, houter⟩
    | closeObject =>
      obtain ⟨hvalue, houter⟩ := hresume h
      have hmembers := isReadable_reverse_members (isReadable_limited hvalue).2
      exact List.forall_mem_cons.mpr ⟨hmembers, houter⟩
    | closeMisnamed => cases (isReadable_limited (hresume h).1).2
    | commaArray => exact ih h
    | commaObject => exact ih h
    | name =>
      obtain ⟨hframe, houter⟩ := List.forall_mem_cons.mp (ih h)
      exact List.forall_mem_cons.mpr ⟨hframe, houter⟩
    | surrogateName => cases (List.forall_mem_cons.mp (ih h)).1
    | misnamed => exact ih h
    | colon => exact ih h
    | breakOff =>
      rw [isReadable_breakOff] at h
      cases h

theorem isReadable_of_resume {frames : List Frame} {value : Json} {tokens : List Token}
    (h : (resume frames value tokens).value.isReadable = true) : value.isReadable = true := by
  cases frames with
  | nil => exact h
  | cons frame outer =>
    have hframe := isReadable_of_readOn h _ List.mem_cons_self
    exact (Frame.isReadable_of_add hframe).2

def commaAfter {α : Type} (text : α → List Char) (done : List α) : List Char :=
  done.flatMap fun a => text a ++ [',']

theorem exists_commaBefore {α : Type} (text : α → List Char) (done : List α) (last : α) :
    ∃ first rest, done ++ [last] = first :: rest ∧
      commaAfter text done ++ text last = text first ++ rest.flatMap fun a => ',' :: text a := by
  induction done with
  | nil => exact ⟨last, [], rfl, by simp [commaAfter]⟩
  | cons a done ih =>
    obtain ⟨first, rest, hlist, htext⟩ := ih
    refine ⟨a, done ++ [last], rfl, ?_⟩
    rw [hlist]
    simp only [commaAfter, List.flatMap_cons, List.append_assoc, List.cons_append,
      List.nil_append] at htext ⊢
    rw [htext]

def depthBelow (frames : List Frame) : Nat :=
  Frame.depthLimit - frames.length

def IsSpelledItem (depth : Nat) (item : List Char × Json) : Prop :=
  Spells depth item.1 item.2

structure IsSpelledMember (depth : Nat) (member : SpelledMember) : Prop where
  name : Spells 0 member.nameChars (.text member.name)
  value : Spells depth member.valueChars member.value

inductive Opened : List Frame → Expect → List Char → Prop
  | start : Opened [] .value []
  | item {frames expect front blanks after} {done : List (List Char × Json)}
      (h : Opened frames expect front) (hexpect : expect.takesValue) (hblanks : Blanks blanks)
      (hdone : ∀ item ∈ done, IsSpelledItem (depthBelow frames - 1) item)
      (hafter : after = .item ∧ done = [] ∨ after = .value) :
      Opened (.array (done.map Prod.snd).reverse :: frames) after
        (front ++ (blanks ++ '[' :: commaAfter Prod.fst done))
  | afterItem {frames expect front blanks} {done : List (List Char × Json)}
      {last : List Char × Json}
      (h : Opened frames expect front) (hexpect : expect.takesValue) (hblanks : Blanks blanks)
      (hdone : ∀ item ∈ done ++ [last], IsSpelledItem (depthBelow frames - 1) item) :
      Opened (.array ((done ++ [last]).map Prod.snd).reverse :: frames) .next
        (front ++ (blanks ++ '[' :: (commaAfter Prod.fst done ++ last.1)))
  | member {frames expect front blanks after last} {done : List SpelledMember}
      (h : Opened frames expect front) (hexpect : expect.takesValue) (hblanks : Blanks blanks)
      (hdone : ∀ member ∈ done, IsSpelledMember (depthBelow frames - 1) member)
      (hafter : after = .member ∧ done = [] ∨ after = .name) :
      Opened (.object (done.map SpelledMember.entry).reverse last :: frames) after
        (front ++ (blanks ++ '{' :: commaAfter SpelledMember.chars done))
  | name {frames expect front blanks nameChars name} {done : List SpelledMember}
      (h : Opened frames expect front) (hexpect : expect.takesValue) (hblanks : Blanks blanks)
      (hdone : ∀ member ∈ done, IsSpelledMember (depthBelow frames - 1) member)
      (hname : Spells 0 nameChars (.text name)) :
      Opened (.object (done.map SpelledMember.entry).reverse name :: frames) .colon
        (front ++ (blanks ++ '{' :: (commaAfter SpelledMember.chars done ++ nameChars)))
  | value {frames expect front blanks nameChars name} {done : List SpelledMember}
      (h : Opened frames expect front) (hexpect : expect.takesValue) (hblanks : Blanks blanks)
      (hdone : ∀ member ∈ done, IsSpelledMember (depthBelow frames - 1) member)
      (hname : Spells 0 nameChars (.text name)) :
      Opened (.object (done.map SpelledMember.entry).reverse name :: frames) .value
        (front ++ (blanks ++ '{' :: (commaAfter SpelledMember.chars done ++ (nameChars ++ [':']))))
  | afterMember {frames expect front blanks name} {done : List SpelledMember}
      {last : SpelledMember}
      (h : Opened frames expect front) (hexpect : expect.takesValue) (hblanks : Blanks blanks)
      (hdone : ∀ member ∈ done ++ [last], IsSpelledMember (depthBelow frames - 1) member) :
      Opened (.object ((done ++ [last]).map SpelledMember.entry).reverse name :: frames) .next
        (front ++ (blanks ++ '{' :: (commaAfter SpelledMember.chars done ++ last.chars)))

theorem depthBelow_cons (frame : Frame) (frames : List Frame) :
    depthBelow (frame :: frames) = depthBelow frames - 1 := by
  simp only [depthBelow, List.length_cons]
  omega

theorem Opened.add {frames : List Frame} {expect : Expect} {front cs : List Char} {value : Json}
    (h : Opened frames expect front) (hexpect : expect.takesValue)
    (hvalue : Spells (depthBelow frames) cs value) :
    frames = [] ∧ front = [] ∨
      ∃ frame outer, frames = frame :: outer ∧
        Opened (frame.add value :: outer) .next (front ++ cs) := by
  cases h with
  | start => exact .inl ⟨rfl, rfl⟩
  | @item frames _ front blanks _ done h hopen hblanks hdone _ =>
    rw [depthBelow_cons] at hvalue
    have hall : ∀ item ∈ done ++ [(cs, value)], IsSpelledItem (depthBelow frames - 1) item :=
      List.forall_mem_append.mpr ⟨hdone, List.forall_mem_singleton.mpr hvalue⟩
    have hnext := Opened.afterItem h hopen hblanks hall
    refine .inr ⟨_, _, rfl, ?_⟩
    simpa [Frame.add] using hnext
  | @value frames _ front blanks nameChars name done h hopen hblanks hdone hname =>
    rw [depthBelow_cons] at hvalue
    have hall : ∀ member ∈ done ++ [⟨nameChars, name, cs, value⟩],
        IsSpelledMember (depthBelow frames - 1) member :=
      List.forall_mem_append.mpr ⟨hdone, List.forall_mem_singleton.mpr ⟨hname, hvalue⟩⟩
    have hnext := @Opened.afterMember _ _ _ _ "" _ _ h hopen hblanks hall
    refine .inr ⟨_, _, rfl, ?_⟩
    simpa [Frame.add, SpelledMember.chars, SpelledMember.entry] using hnext
  | afterItem => rcases hexpect with h | h <;> cases h
  | afterMember => rcases hexpect with h | h <;> cases h
  | name => rcases hexpect with h | h <;> cases h
  | member _ _ _ _ hafter =>
    rcases hexpect with rfl | rfl <;> rcases hafter with ⟨h, -⟩ | h <;> cases h

section Token

variable {depth : Nat} {blanks : List Char} (hblanks : Blanks blanks)

include hblanks

theorem spells_array {done : List (List Char × Json)} {last : List Char × Json}
    (hdone : ∀ item ∈ done ++ [last], IsSpelledItem depth item) :
    Spells (depth + 1) ('[' :: (commaAfter Prod.fst done ++ last.1 ++ (blanks ++ [']'])))
      (.array ((done ++ [last]).map Prod.snd)) := by
  obtain ⟨first, rest, hlist, htext⟩ := exists_commaBefore Prod.fst done last
  rw [hlist] at hdone ⊢
  obtain ⟨hfirst, hrest⟩ := List.forall_mem_cons.mp hdone
  rw [htext, List.append_assoc]
  exact .array hfirst hrest hblanks

theorem spells_object {done : List SpelledMember} {last : SpelledMember}
    (hdone : ∀ member ∈ done ++ [last], IsSpelledMember depth member) :
    Spells (depth + 1)
      ('{' :: (commaAfter SpelledMember.chars done ++ last.chars ++ (blanks ++ ['}'])))
      (.object ((done ++ [last]).map SpelledMember.entry)) := by
  obtain ⟨first, rest, hlist, htext⟩ := exists_commaBefore SpelledMember.chars done last
  rw [hlist] at hdone ⊢
  obtain ⟨hfirst, hrest⟩ := List.forall_mem_cons.mp hdone
  rw [htext, List.append_assoc]
  exact .object hfirst.name hfirst.value (fun member hmember => (hrest member hmember).name)
    (fun member hmember => (hrest member hmember).value) hblanks

theorem Opened.closeArray {items : List Json} {frames : List Frame} {expect : Expect}
    {front : List Char} (h : Opened (.array items :: frames) expect front)
    (hexpect : expect = .item ∨ expect = .next) (hdepth : frames.length + 1 ≤ Frame.depthLimit) :
    ∃ before outer cs, Opened frames outer before ∧ outer.takesValue ∧
      Spells (depthBelow frames) cs (.array items.reverse) ∧
      front ++ (blanks ++ [']']) = before ++ cs := by
  have hbelow : depthBelow frames = depthBelow frames - 1 + 1 := by
    simp only [depthBelow]
    omega
  cases h with
  | @item _ _ before blanksBefore _ done h hopen hbefore _ hafter =>
    have hempty : done = [] := by
      rcases hafter with ⟨-, hdone⟩ | rfl
      · exact hdone
      · rcases hexpect with h | h <;> cases h
    subst hempty
    refine ⟨before, _, blanksBefore ++ '[' :: (blanks ++ [']']), h, hopen, ?_, ?_⟩
    · rw [hbelow]
      exact .blanksBefore hbefore (.emptyArray hblanks)
    · simp [commaAfter]
  | @afterItem _ _ before blanksBefore done last h hopen hbefore hdone =>
    have harray := Spells.blanksBefore hbefore (spells_array hblanks hdone)
    rw [← hbelow, ← List.reverse_reverse (List.map Prod.snd (done ++ [last]))] at harray
    exact ⟨before, _, _, h, hopen, harray, by simp⟩

theorem Opened.closeObject {members : List (String × Json)} {last : String} {frames : List Frame}
    {expect : Expect} {front : List Char} (h : Opened (.object members last :: frames) expect front)
    (hexpect : expect = .member ∨ expect = .next) (hdepth : frames.length + 1 ≤ Frame.depthLimit) :
    ∃ before outer cs, Opened frames outer before ∧ outer.takesValue ∧
      Spells (depthBelow frames) cs (.object members.reverse) ∧
      front ++ (blanks ++ ['}']) = before ++ cs := by
  have hbelow : depthBelow frames = depthBelow frames - 1 + 1 := by
    simp only [depthBelow]
    omega
  cases h with
  | @member _ _ before blanksBefore _ _ done h hopen hbefore _ hafter =>
    have hempty : done = [] := by
      rcases hafter with ⟨-, hdone⟩ | rfl
      · exact hdone
      · rcases hexpect with h | h <;> cases h
    subst hempty
    refine ⟨before, _, blanksBefore ++ '{' :: (blanks ++ ['}']), h, hopen, ?_, ?_⟩
    · rw [hbelow]
      exact .blanksBefore hbefore (.emptyObject hblanks)
    · simp [commaAfter]
  | name => rcases hexpect with h | h <;> cases h
  | value => rcases hexpect with h | h <;> cases h
  | @afterMember _ _ before blanksBefore _ done last h hopen hbefore hdone =>
    have hobject := Spells.blanksBefore hbefore (spells_object hblanks hdone)
    rw [← hbelow, ← List.reverse_reverse (List.map SpelledMember.entry (done ++ [last]))] at hobject
    exact ⟨before, _, _, h, hopen, hobject, by simp⟩

theorem Opened.commaArray {items : List Json} {frames : List Frame} {front : List Char}
    (h : Opened (.array items :: frames) .next front) :
    Opened (.array items :: frames) .value (front ++ (blanks ++ [','])) := by
  cases h with
  | item _ _ _ _ hafter => rcases hafter with ⟨h, -⟩ | h <;> cases h
  | @afterItem _ _ before blanksBefore done last h hopen hbefore hdone =>
    obtain ⟨hdone, hlast⟩ := List.forall_mem_append.mp hdone
    have hall : ∀ item ∈ done ++ [(last.1 ++ blanks, last.2)],
        IsSpelledItem (depthBelow frames - 1) item := by
      refine List.forall_mem_append.mpr ⟨hdone, List.forall_mem_singleton.mpr ?_⟩
      exact .blanksAfter hblanks (hlast last List.mem_cons_self)
    have hitem := Opened.item h hopen hbefore hall (.inr rfl)
    simpa [commaAfter] using hitem

theorem Opened.commaObject {members : List (String × Json)} {last : String} {frames : List Frame}
    {front : List Char} (h : Opened (.object members last :: frames) .next front) :
    Opened (.object members last :: frames) .name (front ++ (blanks ++ [','])) := by
  cases h with
  | member _ _ _ _ hafter => rcases hafter with ⟨h, -⟩ | h <;> cases h
  | @afterMember _ _ before blanksBefore _ done last h hopen hbefore hdone =>
    obtain ⟨hdone, hlast⟩ := List.forall_mem_append.mp hdone
    obtain ⟨hname, hvalue⟩ := hlast last List.mem_cons_self
    have hall : ∀ member ∈ done ++ [{ last with valueChars := last.valueChars ++ blanks }],
        IsSpelledMember (depthBelow frames - 1) member := by
      refine List.forall_mem_append.mpr ⟨hdone, List.forall_mem_singleton.mpr ⟨hname, ?_⟩⟩
      exact .blanksAfter hblanks hvalue
    have hmember := @Opened.member _ _ _ _ _ ‹String› _ h hopen hbefore hall (.inr rfl)
    simpa [commaAfter, SpelledMember.chars, SpelledMember.entry] using hmember

theorem Opened.memberName {members : List (String × Json)} {last name : String}
    {frames : List Frame} {expect : Expect} {front cs : List Char}
    (h : Opened (.object members last :: frames) expect front)
    (hexpect : expect = .member ∨ expect = .name) (hname : Spells 0 cs (.text name)) :
    Opened (.object members name :: frames) .colon (front ++ (blanks ++ cs)) := by
  cases h with
  | name => rcases hexpect with h | h <;> cases h
  | value => rcases hexpect with h | h <;> cases h
  | afterMember => rcases hexpect with h | h <;> cases h
  | member h hopen hbefore hdone =>
    have hnext := Opened.name h hopen hbefore hdone (.blanksBefore hblanks hname)
    simpa using hnext

theorem Opened.colon {frames : List Frame} {front : List Char} (h : Opened frames .colon front) :
    Opened frames .value (front ++ (blanks ++ [':'])) := by
  cases h with
  | item _ _ _ _ hafter => rcases hafter with ⟨h, -⟩ | h <;> cases h
  | member _ _ _ _ hafter => rcases hafter with ⟨h, -⟩ | h <;> cases h
  | name h hopen hbefore hdone hname =>
    have hnext := Opened.value h hopen hbefore hdone (.blanksAfter hblanks hname)
    simpa using hnext

end Token

theorem spells_of_resume {frames : List Frame} {expect : Expect} {front cs rest : List Char}
    {value total : Json} {tokens : List Token} (h : Opened frames expect front)
    (hexpect : expect.takesValue) (hvalue : Spells (depthBelow frames) cs value)
    (hlexed : Lexed rest tokens) (hread : resume frames value tokens = ⟨total, []⟩)
    (hrest : ∀ {frames expect front}, Opened frames expect front →
      readOn frames expect tokens = ⟨total, []⟩ →
        Spells Frame.depthLimit (front ++ rest) total) :
    Spells Frame.depthLimit (front ++ (cs ++ rest)) total := by
  rcases h.add hexpect hvalue with ⟨rfl, rfl⟩ | ⟨frame, outer, rfl, hopened⟩
  · cases hread
    cases hlexed with
    | done hblanks =>
      rw [List.nil_append]
      exact .blanksAfter hblanks hvalue
  · rw [← List.append_assoc]
    exact hrest hopened hread

theorem spells_of_readOn {rest : List Char} {tokens : List Token} {total : Json}
    (hlexed : Lexed rest tokens) (hreadable : total.isReadable = true) {frames : List Frame}
    {expect : Expect} {front : List Char} (hopened : Opened frames expect front)
    (hread : readOn frames expect tokens = ⟨total, []⟩) :
    Spells Frame.depthLimit (front ++ rest) total := by
  have hnoBreak {frames : List Frame} (h : breakOff frames = ⟨total, []⟩) : False := by
    have hbreak := isReadable_breakOff frames
    rw [h, hreadable] at hbreak
    cases hbreak
  induction hlexed generalizing frames expect front with
  | done =>
    rw [readOn] at hread
    exact (hnoBreak hread).elim
  | @token blanks cs token rest tokens hblanks htoken hlexed ih =>
    have hacts := acts frames expect token tokens
    rw [hread] at hacts
    -- a complete value is readable, and goes on as the induction does
    have hresume {frames : List Frame} {expect : Expect} {front cs : List Char} {value : Json}
        (h : Opened frames expect front) (hexpect : expect.takesValue)
        (hread : resume frames value tokens = ⟨total, []⟩)
        (hvalue : value.isReadable = true → Spells (depthBelow frames) cs value) :
        Spells Frame.depthLimit (front ++ (cs ++ rest)) total := by
      have hpart : value.isReadable = true := isReadable_of_resume (by rw [hread]; exact hreadable)
      exact spells_of_resume h hexpect (hvalue hpart) hlexed hread ih
    generalize hreading : (⟨total, []⟩ : Reading) = reading at hacts
    have hwhole {reading : Reading} (h : ⟨total, []⟩ = reading) :
        reading.value.isReadable = true := by
      rw [← h]
      exact hreadable
    cases hacts with
    | scalar hexpect =>
      have hspells := hresume hopened hexpect hreading.symm fun hvalue =>
        .blanksBefore hblanks (htoken hvalue _)
      rwa [List.append_assoc] at hspells
    | surrogate hexpect => cases isReadable_of_resume (hwhole hreading)
    | openArray hexpect =>
      subst htoken
      have hnext := Opened.item hopened hexpect hblanks (List.forall_mem_nil _) (.inl ⟨rfl, rfl⟩)
      simpa [commaAfter] using ih hnext hreading.symm
    | openObject hexpect =>
      subst htoken
      have hnext := @Opened.member _ _ _ _ _ "" _ hopened hexpect hblanks (List.forall_mem_nil _)
        (.inl ⟨rfl, rfl⟩)
      simpa [commaAfter] using ih hnext hreading.symm
    | closeArray hexpect =>
      subst htoken
      obtain ⟨hdepth, -⟩ := isReadable_limited (isReadable_of_resume (hwhole hreading))
      obtain ⟨before, outer, cs, hbefore, houter, hspells, hchars⟩ :=
        hopened.closeArray hblanks hexpect hdepth
      rw [limited_eq hdepth] at hreading
      have htotal := hresume hbefore houter hreading.symm fun _ => hspells
      rw [← List.append_assoc, ← hchars] at htotal
      simpa using htotal
    | closeObject hexpect =>
      subst htoken
      obtain ⟨hdepth, -⟩ := isReadable_limited (isReadable_of_resume (hwhole hreading))
      obtain ⟨before, outer, cs, hbefore, houter, hspells, hchars⟩ :=
        hopened.closeObject hblanks hexpect hdepth
      rw [limited_eq hdepth] at hreading
      have htotal := hresume hbefore houter hreading.symm fun _ => hspells
      rw [← List.append_assoc, ← hchars] at htotal
      simpa using htotal
    | closeMisnamed =>
      cases (isReadable_limited (isReadable_of_resume (hwhole hreading))).2
    | commaArray =>
      subst htoken
      simpa using ih (hopened.commaArray hblanks) hreading.symm
    | commaObject =>
      subst htoken
      simpa using ih (hopened.commaObject hblanks) hreading.symm
    | name hexpect =>
      have hnext := hopened.memberName hblanks hexpect (htoken rfl 0)
      simpa using ih hnext hreading.symm
    | surrogateName => cases isReadable_of_readOn (hwhole hreading) _ List.mem_cons_self
    | misnamed => cases isReadable_of_readOn (hwhole hreading) _ List.mem_cons_self
    | colon =>
      subst htoken
      simpa using ih (hopened.colon hblanks) hreading.symm
    | breakOff => exact (hnoBreak hreading.symm).elim

/-- The grammar is that of the reader: a text writes a value exactly when it is read to its end, as
that value, and every part of the value has one. -/
theorem spelledBy_iff {value : Json} {text : String} :
    value.SpelledBy text ↔ Json.ofText text = ⟨value, []⟩ ∧ value.isReadable = true := by
  constructor
  · intro h
    exact ⟨ofText_of_spells h (Nat.le_refl _), Spells.isReadable h⟩
  · rintro ⟨hread, hreadable⟩
    exact spells_of_readOn (lexed_run text.toList) hreadable .start hread

end RightsPolicy.Json
