import RightsPolicy.Json.Reader
import RightsPolicy.Proofs.Json.Number
import RightsPolicy.Proofs.Json.Quoted

namespace RightsPolicy.Json

def Blanks (cs : List Char) : Prop :=
  ∀ c ∈ cs, Scan.isBlank c = true

instance (cs : List Char) : Decidable (Blanks cs) :=
  List.decidableBAll (fun c => Scan.isBlank c = true) cs

structure SpelledMember where
  nameChars : List Char
  name : String
  valueChars : List Char
  value : Json

namespace SpelledMember

def chars (member : SpelledMember) : List Char :=
  member.nameChars ++ ':' :: member.valueChars

def entry (member : SpelledMember) : String × Json :=
  (member.name, member.value)

end SpelledMember

inductive Spells : Nat → List Char → Json → Prop
  | null {depth} : Spells depth ['n', 'u', 'l', 'l'] .null
  | bool {depth} (b : Bool) :
      Spells depth (if b then ['t', 'r', 'u', 'e'] else ['f', 'a', 'l', 's', 'e']) (.bool b)
  | integer {depth n} (h : IsWord n) : Spells depth (integerChars n) (.integer n)
  | decimal {depth cs parts x} (h : Number.Spells cs parts)
      (hx : Number.ofParts parts = .decimal x) : Spells depth cs (.decimal x)
  | text {depth cs s} (h : Quoted.Spells cs s) :
      Spells depth ('"' :: cs ++ ['"']) (.text (String.ofList s))
  | emptyArray {depth blanks} (hblanks : Blanks blanks) :
      Spells (depth + 1) ('[' :: (blanks ++ [']'])) (.array [])
  | array {depth blanks} {first : List Char × Json} {rest : List (List Char × Json)}
      (hfirst : Spells depth first.1 first.2) (hrest : ∀ item ∈ rest, Spells depth item.1 item.2)
      (hblanks : Blanks blanks) :
      Spells (depth + 1)
        ('[' :: (first.1 ++ ((rest.flatMap fun item => ',' :: item.1) ++ (blanks ++ [']']))))
        (.array (first.2 :: rest.map Prod.snd))
  | emptyObject {depth blanks} (hblanks : Blanks blanks) :
      Spells (depth + 1) ('{' :: (blanks ++ ['}'])) (.object [])
  | object {depth blanks} {first : SpelledMember} {rest : List SpelledMember}
      (hfirstName : Spells 0 first.nameChars (.text first.name))
      (hfirst : Spells depth first.valueChars first.value)
      (hrestNames : ∀ member ∈ rest, Spells 0 member.nameChars (.text member.name))
      (hrest : ∀ member ∈ rest, Spells depth member.valueChars member.value)
      (hblanks : Blanks blanks) :
      Spells (depth + 1)
        ('{' :: (first.chars ++
          ((rest.flatMap fun member => ',' :: member.chars) ++ (blanks ++ ['}']))))
        (.object (first.entry :: rest.map SpelledMember.entry))
  | blanksBefore {depth blanks cs value} (hblanks : Blanks blanks) (h : Spells depth cs value) :
      Spells depth (blanks ++ cs) value
  | blanksAfter {depth blanks cs value} (hblanks : Blanks blanks) (h : Spells depth cs value) :
      Spells depth (cs ++ blanks) value

def SpelledBy (value : Json) (text : String) : Prop :=
  Spells Frame.depthLimit text.toList value

theorem areReadable_iff (items : List Json) :
    areReadable items = true ↔ ∀ item ∈ items, item.isReadable = true := by
  induction items with
  | nil => simp [areReadable]
  | cons item items ih => simp [areReadable, ih]

theorem membersAreReadable_iff (members : List (String × Json)) :
    membersAreReadable members = true ↔ ∀ member ∈ members, member.2.isReadable = true := by
  induction members with
  | nil => simp [membersAreReadable]
  | cons member members ih => simp [membersAreReadable, ih]

theorem Spells.isReadable {depth : Nat} {cs : List Char} {value : Json}
    (h : Spells depth cs value) : value.isReadable = true := by
  induction h with
  | array _ _ _ hfirst hrest =>
    refine (areReadable_iff _).mpr (List.forall_mem_cons.mpr ⟨hfirst, ?_⟩)
    exact List.forall_mem_map.mpr hrest
  | object _ _ _ _ _ _ hfirst _ hrest =>
    refine (membersAreReadable_iff _).mpr (List.forall_mem_cons.mpr ⟨hfirst, ?_⟩)
    exact List.forall_mem_map.mpr hrest
  | blanksBefore _ _ ih => exact ih
  | blanksAfter _ _ ih => exact ih
  | _ => rfl

namespace Scan

theorem run_blanks {blanks : List Char} (h : Blanks blanks) (rest : List Char) :
    between.run (blanks ++ rest) = between.run rest := by
  induction blanks with
  | nil => rfl
  | cons c blanks ih =>
    obtain ⟨hc, hblanks⟩ := List.forall_mem_cons.mp h
    rw [List.cons_append, ← ih hblanks]
    simp [run, step, start, hc]

theorem endsNumber_cons {c : Char} (h : Number.Place.whole.next? c = none) (rest : List Char) :
    EndsNumber (c :: rest) := by
  intro d hd
  cases hd
  exact h

theorem endsNumber_blanks {blanks rest : List Char} (h : Blanks blanks) (hrest : EndsNumber rest) :
    EndsNumber (blanks ++ rest) := by
  cases blanks with
  | nil => exact hrest
  | cons c blanks =>
    have hc := h c List.mem_cons_self
    simp only [isBlank, Bool.or_eq_true, decide_eq_true_eq] at hc
    apply endsNumber_cons
    rcases hc with ((rfl | rfl) | rfl) | rfl <;> decide

theorem run_name {depth : Nat} {cs : List Char} {name : String}
    (h : Spells depth cs (.text name)) (rest : List Char) :
    between.run (cs ++ rest) = .scalar (.text name) :: between.run rest := by
  generalize hvalue : Json.text name = value at h
  induction h generalizing rest with
  | text hquoted =>
    cases hvalue
    have hrun := run_quoted hquoted rest
    simpa using hrun
  | blanksBefore hblanks _ ih => rw [List.append_assoc, run_blanks hblanks, ih rest hvalue]
  | blanksAfter hblanks _ ih => rw [List.append_assoc, ih _ hvalue, run_blanks hblanks]
  | _ => cases hvalue

end Scan

def resume (frames : List Frame) (value : Json) (rest : List Token) : Reading :=
  match frames with
  | [] => ⟨value, rest⟩
  | frame :: outer => readOn (frame.add value :: outer) .next rest

def Expect.takesValue (expect : Expect) : Prop :=
  expect = .value ∨ expect = .item

def IsRead (depth : Nat) (cs : List Char) (value : Json) : Prop :=
  ∀ (frames : List Frame) (expect : Expect) (rest : List Char),
    frames.length + depth ≤ Frame.depthLimit → expect.takesValue → Scan.EndsNumber rest →
    readOn frames expect (Scan.between.run (cs ++ rest)) =
      resume frames value (Scan.between.run rest)

theorem readOn_scalar (frames : List Frame) {expect : Expect} (h : expect.takesValue)
    (value : Json) (rest : List Token) :
    readOn frames expect (.scalar value :: rest) = resume frames value rest := by
  rcases h with rfl | rfl <;> cases frames <;> rfl

theorem readOn_openArray (frames : List Frame) {expect : Expect} (h : expect.takesValue)
    (rest : List Token) :
    readOn frames expect (.openArray :: rest) = readOn (.array [] :: frames) .item rest := by
  rcases h with rfl | rfl <;> cases frames <;> rfl

theorem readOn_openObject (frames : List Frame) {expect : Expect} (h : expect.takesValue)
    (rest : List Token) :
    readOn frames expect (.openObject :: rest) = readOn (.object [] "" :: frames) .member rest := by
  rcases h with rfl | rfl <;> cases frames <;> rfl

theorem limited_eq {frames : List Frame} (h : frames.length ≤ Frame.depthLimit) (value : Json) :
    limited frames value = value :=
  if_pos h

theorem readOn_closeArray (items : List Json) (frames : List Frame)
    (hdepth : frames.length + 1 ≤ Frame.depthLimit) (rest : List Token) {expect : Expect}
    (hexpect : expect = .next ∨ expect = .item) :
    readOn (.array items :: frames) expect (.closeArray :: rest) =
      resume frames (.array items.reverse) rest := by
  have hlimited := @limited_eq (.array items :: frames) hdepth (.array items.reverse)
  rw [← hlimited]
  rcases hexpect with rfl | rfl <;> cases frames <;> rfl

theorem readOn_closeObject (members : List (String × Json)) (name : String)
    (frames : List Frame) (hdepth : frames.length + 1 ≤ Frame.depthLimit) (rest : List Token)
    {expect : Expect} (hexpect : expect = .next ∨ expect = .member) :
    readOn (.object members name :: frames) expect (.closeObject :: rest) =
      resume frames (.object members.reverse) rest := by
  have hlimited := @limited_eq (.object members name :: frames) hdepth
    (.object members.reverse)
  rw [← hlimited]
  rcases hexpect with rfl | rfl <;> cases frames <;> rfl

variable {depth : Nat} {frames : List Frame}

theorem isRead_scalar {cs : List Char} {value : Json}
    (h : ∀ rest, Scan.EndsNumber rest →
      Scan.between.run (cs ++ rest) = .scalar value :: Scan.between.run rest) :
    IsRead depth cs value := by
  intro frames expect rest _ hexpect hends
  rw [h rest hends, readOn_scalar frames hexpect]

section Array

variable {blanks : List Char} (hblanks : Blanks blanks)

include hblanks

theorem run_closeArray (rest : List Char) :
    Scan.between.run (blanks ++ ']' :: rest) = .closeArray :: Scan.between.run rest :=
  Scan.run_blanks hblanks (']' :: rest)

theorem endsNumber_items (items : List (List Char × Json)) (rest : List Char) :
    Scan.EndsNumber ((items.flatMap fun item => ',' :: item.1) ++ (blanks ++ ']' :: rest)) := by
  cases items with
  | nil =>
    rw [List.flatMap_nil, List.nil_append]
    exact Scan.endsNumber_blanks hblanks (Scan.endsNumber_cons (by decide) rest)
  | cons item items => exact Scan.endsNumber_cons (by decide) _

theorem readOn_items {items : List (List Char × Json)}
    (h : ∀ item ∈ items, IsRead depth item.1 item.2) (done : List Json) (rest : List Char)
    (hdepth : frames.length + 1 + depth ≤ Frame.depthLimit) :
    readOn (.array done :: frames) .next
        (Scan.between.run
          ((items.flatMap fun item => ',' :: item.1) ++ (blanks ++ ']' :: rest))) =
      resume frames (.array (done.reverse ++ items.map Prod.snd)) (Scan.between.run rest) := by
  induction items generalizing done with
  | nil =>
    rw [List.flatMap_nil, List.nil_append, run_closeArray hblanks,
      readOn_closeArray done frames (by omega) _ (.inl rfl), List.map_nil, List.append_nil]
  | cons item items ih =>
    obtain ⟨hitem, hitems⟩ := List.forall_mem_cons.mp h
    have hcomma (cs : List Char) : readOn (.array done :: frames) .next
        (Scan.between.run (',' :: cs)) =
          readOn (.array done :: frames) .value (Scan.between.run cs) := rfl
    have hvalue := hitem (.array done :: frames) .value _ hdepth (.inl rfl)
      (endsNumber_items hblanks items rest)
    have hrest := ih hitems (item.2 :: done)
    rw [List.reverse_cons, List.append_assoc, List.singleton_append] at hrest
    simp only [List.flatMap_cons, List.cons_append, List.append_assoc]
    rw [hcomma, hvalue]
    exact hrest

theorem isRead_emptyArray : IsRead (depth + 1) ('[' :: (blanks ++ [']'])) (.array []) := by
  intro frames expect rest hdepth hexpect _
  have hopen (cs : List Char) : readOn frames expect (Scan.between.run ('[' :: cs)) =
      readOn (.array [] :: frames) .item (Scan.between.run cs) :=
    readOn_openArray frames hexpect (Scan.between.run cs)
  simp only [List.cons_append, List.append_assoc, List.nil_append]
  rw [hopen, run_closeArray hblanks, readOn_closeArray [] frames (by omega) _ (.inr rfl)]
  rfl

theorem isRead_array {first : List Char × Json} {items : List (List Char × Json)}
    (hfirst : IsRead depth first.1 first.2) (hitems : ∀ item ∈ items, IsRead depth item.1 item.2) :
    IsRead (depth + 1)
      ('[' :: (first.1 ++ ((items.flatMap fun item => ',' :: item.1) ++ (blanks ++ [']']))))
      (.array (first.2 :: items.map Prod.snd)) := by
  intro frames expect rest hdepth hexpect _
  have hopen (cs : List Char) : readOn frames expect (Scan.between.run ('[' :: cs)) =
      readOn (.array [] :: frames) .item (Scan.between.run cs) :=
    readOn_openArray frames hexpect (Scan.between.run cs)
  have hlength : frames.length + 1 + depth ≤ Frame.depthLimit := by omega
  have hvalue := hfirst (.array [] :: frames) .item _ hlength (.inr rfl)
    (endsNumber_items hblanks items rest)
  have hrest := readOn_items hblanks hitems [first.2] rest hlength
  simp only [List.cons_append, List.append_assoc, List.nil_append]
  rw [hopen, hvalue]
  exact hrest

end Array

theorem readOn_name {member : SpelledMember} (hname : Spells 0 member.nameChars (.text member.name))
    (done : List (String × Json)) (last : String) {expect : Expect}
    (hexpect : expect = .name ∨ expect = .member) (rest : List Char) :
    readOn (.object done last :: frames) expect (Scan.between.run (member.chars ++ rest)) =
      readOn (.object done member.name :: frames) .value
        (Scan.between.run (member.valueChars ++ rest)) := by
  have hcolon (cs : List Char) : Scan.between.run (':' :: cs) = .colon :: Scan.between.run cs := rfl
  rw [SpelledMember.chars, List.append_assoc, List.cons_append, Scan.run_name hname, hcolon]
  rcases hexpect with rfl | rfl <;> cases frames <;> rfl

section Object

variable {blanks : List Char} (hblanks : Blanks blanks)

include hblanks

theorem run_closeObject (rest : List Char) :
    Scan.between.run (blanks ++ '}' :: rest) = .closeObject :: Scan.between.run rest :=
  Scan.run_blanks hblanks ('}' :: rest)

theorem endsNumber_members (members : List SpelledMember) (rest : List Char) :
    Scan.EndsNumber
      ((members.flatMap fun member => ',' :: member.chars) ++ (blanks ++ '}' :: rest)) := by
  cases members with
  | nil =>
    rw [List.flatMap_nil, List.nil_append]
    exact Scan.endsNumber_blanks hblanks (Scan.endsNumber_cons (by decide) rest)
  | cons member members => exact Scan.endsNumber_cons (by decide) _

theorem readOn_members {members : List SpelledMember}
    (hnames : ∀ member ∈ members, Spells 0 member.nameChars (.text member.name))
    (h : ∀ member ∈ members, IsRead depth member.valueChars member.value)
    (done : List (String × Json)) (last : String) (rest : List Char)
    (hdepth : frames.length + 1 + depth ≤ Frame.depthLimit) :
    readOn (.object done last :: frames) .next
        (Scan.between.run
          ((members.flatMap fun member => ',' :: member.chars) ++ (blanks ++ '}' :: rest))) =
      resume frames (.object (done.reverse ++ members.map SpelledMember.entry))
        (Scan.between.run rest) := by
  induction members generalizing done last with
  | nil =>
    rw [List.flatMap_nil, List.nil_append, run_closeObject hblanks,
      readOn_closeObject done last frames (by omega) _ (.inl rfl), List.map_nil, List.append_nil]
  | cons member members ih =>
    obtain ⟨hname, hnames⟩ := List.forall_mem_cons.mp hnames
    obtain ⟨hmember, hmembers⟩ := List.forall_mem_cons.mp h
    have hcomma (cs : List Char) : readOn (.object done last :: frames) .next
        (Scan.between.run (',' :: cs)) =
          readOn (.object done last :: frames) .name (Scan.between.run cs) := rfl
    have hvalue := hmember (.object done member.name :: frames) .value _ hdepth (.inl rfl)
      (endsNumber_members hblanks members rest)
    have hrest := ih hnames hmembers (member.entry :: done) ""
    rw [List.reverse_cons, List.append_assoc, List.singleton_append] at hrest
    simp only [List.flatMap_cons, List.cons_append, List.append_assoc]
    rw [hcomma, readOn_name hname done last (.inl rfl), hvalue]
    exact hrest

theorem isRead_emptyObject : IsRead (depth + 1) ('{' :: (blanks ++ ['}'])) (.object []) := by
  intro frames expect rest hdepth hexpect _
  have hopen (cs : List Char) : readOn frames expect (Scan.between.run ('{' :: cs)) =
      readOn (.object [] "" :: frames) .member (Scan.between.run cs) :=
    readOn_openObject frames hexpect (Scan.between.run cs)
  simp only [List.cons_append, List.append_assoc, List.nil_append]
  rw [hopen, run_closeObject hblanks, readOn_closeObject [] "" frames (by omega) _ (.inr rfl)]
  rfl

theorem isRead_object {first : SpelledMember} {members : List SpelledMember}
    (hfirstName : Spells 0 first.nameChars (.text first.name))
    (hfirst : IsRead depth first.valueChars first.value)
    (hnames : ∀ member ∈ members, Spells 0 member.nameChars (.text member.name))
    (hmembers : ∀ member ∈ members, IsRead depth member.valueChars member.value) :
    IsRead (depth + 1)
      ('{' :: (first.chars ++
        ((members.flatMap fun member => ',' :: member.chars) ++ (blanks ++ ['}']))))
      (.object (first.entry :: members.map SpelledMember.entry)) := by
  intro frames expect rest hdepth hexpect _
  have hopen (cs : List Char) : readOn frames expect (Scan.between.run ('{' :: cs)) =
      readOn (.object [] "" :: frames) .member (Scan.between.run cs) :=
    readOn_openObject frames hexpect (Scan.between.run cs)
  have hlength : frames.length + 1 + depth ≤ Frame.depthLimit := by omega
  have hvalue := hfirst (.object [] first.name :: frames) .value _ hlength (.inl rfl)
    (endsNumber_members hblanks members rest)
  have hrest := readOn_members hblanks hnames hmembers [first.entry] "" rest hlength
  simp only [List.cons_append, List.append_assoc, List.nil_append]
  rw [hopen, readOn_name hfirstName [] "" (.inr rfl), hvalue]
  exact hrest

end Object

theorem Spells.isRead {cs : List Char} {value : Json} (h : Spells depth cs value) :
    IsRead depth cs value := by
  induction h with
  | null => exact isRead_scalar fun _ _ => rfl
  | bool b => exact isRead_scalar fun _ _ => by cases b <;> rfl
  | integer hword =>
    refine isRead_scalar fun rest hends => ?_
    rw [Scan.run_number (Number.spells_integerChars _) rest hends, Number.ofParts_integer hword]
  | decimal hnumber hx =>
    refine isRead_scalar fun rest hends => ?_
    rw [Scan.run_number hnumber rest hends, hx]
  | text hquoted =>
    refine isRead_scalar fun rest _ => ?_
    have hrun := Scan.run_quoted hquoted rest
    simpa using hrun
  | emptyArray hblanks => exact isRead_emptyArray hblanks
  | array _ _ hblanks hfirst hrest => exact isRead_array hblanks hfirst hrest
  | emptyObject hblanks => exact isRead_emptyObject hblanks
  | object hfirstName _ hrestNames _ hblanks _ hfirst _ hrest =>
    exact isRead_object hblanks hfirstName hfirst hrestNames hrest
  | blanksBefore hblanks _ ih =>
    intro frames expect rest hdepth hexpect hends
    rw [List.append_assoc, Scan.run_blanks hblanks]
    exact ih frames expect rest hdepth hexpect hends
  | @blanksAfter _ blanks cs _ hblanks _ ih =>
    intro frames expect rest hdepth hexpect hends
    have hread := ih frames expect (blanks ++ rest) hdepth hexpect
      (Scan.endsNumber_blanks hblanks hends)
    rwa [Scan.run_blanks hblanks, ← List.append_assoc] at hread

theorem ofText_of_spells {text : String} {value : Json} (h : Spells depth text.toList value)
    (hdepth : depth ≤ Frame.depthLimit) : Json.ofText text = ⟨value, []⟩ := by
  have hends : Scan.EndsNumber [] := by
    intro c hc
    cases hc
  have hread := h.isRead [] .value [] (by rwa [List.length_nil, Nat.zero_add]) (.inl rfl) hends
  rw [List.append_nil] at hread
  rw [Json.ofText, tokens, hread]
  rfl

end RightsPolicy.Json
