import RightsPolicy.Calendar.Timestamp
import RightsPolicy.Proofs.Calendar.Moment
import RightsPolicy.Proofs.Text.Digits

namespace RightsPolicy

theorem Text.dropSpace_cons {c : Char} (h : isWhiteSpace c = false) (rest : List Char) :
    dropSpace (c :: rest) = c :: rest := by
  simp [dropSpace, h]

theorem Text.isWhiteSpace_of_isDigit {c : Char} (h : c.isDigit = true) :
    isWhiteSpace c = false := by
  have hrange : 48 ≤ c.toNat ∧ c.toNat ≤ 57 := Char.isDigit_iff_toNat.mp h
  simp only [isWhiteSpace, inRanges, whiteSpaceRanges, List.any_cons, List.any_nil, Bool.or_false,
    Bool.or_eq_false_iff, Bool.and_eq_false_iff, decide_eq_false_iff_not]
  omega

namespace Timestamp

def Space (cs : List Char) : Prop :=
  ∀ c ∈ cs, Text.isWhiteSpace c = true

inductive SpellsField : List Char → Nat → Prop
  | mk {space digits} (hspace : Space space) (hdigits : Text.IsDigits digits)
      (hlength : digits.length ≤ 2) : SpellsField (space ++ digits) (Text.digitsValue digits)

inductive SpellsYear : List Char → Int → Prop
  | plain {space digits} (hspace : Space space) (hdigits : Text.IsDigits digits)
      (hlength : digits.length ≤ 4) : SpellsYear (space ++ digits) (Text.digitsValue digits)
  | plus {space digits} (hspace : Space space) (hdigits : Text.IsDigits digits) :
      SpellsYear (space ++ '+' :: digits) (Text.digitsValue digits)
  | minus {space digits} (hspace : Space space) (hdigits : Text.IsDigits digits) :
      SpellsYear (space ++ '-' :: digits) (-Text.digitsValue digits)

inductive SpellsDate : List Char → Date → Prop
  | mk {date : Date} {year first month second day}
      (hyear : SpellsYear year date.year) (hfirst : Space first)
      (hmonth : SpellsField month date.month) (hsecond : Space second)
      (hday : SpellsField day date.day) (hvalid : date.isValid = true) :
      SpellsDate (year ++ (first ++ '-' :: (month ++ (second ++ '-' :: day)))) date

inductive SpellsFraction : List Char → Nat → Prop
  | none : SpellsFraction [] 0
  | digits {digits} (h : Text.IsDigits digits) :
      SpellsFraction ('.' :: digits) (Text.digitsValue digits * 10 ^ 9 / 10 ^ digits.length)

inductive SpellsShift : List Char → Int → Prop
  | mk {a b gap c d} (hhours : ∀ e ∈ [a, b], e.isDigit = true)
      (hgap : ∀ e ∈ gap, e = ':' ∨ Text.isWhiteSpace e = true)
      (hminutes : ∀ e ∈ [c, d], e.isDigit = true) (hday : Text.digitsValue [a, b] ≤ 23)
      (hhour : Text.digitsValue [c, d] ≤ 59) :
      SpellsShift (a :: b :: (gap ++ [c, d]))
        (60 * Text.digitsValue [a, b] + Text.digitsValue [c, d])

inductive SpellsOffset : List Char → Int → Prop
  | zulu {c} (h : c = 'Z' ∨ c = 'z') : SpellsOffset [c] 0
  | utc {u t c} (hu : u = 'U' ∨ u = 'u') (ht : t = 'T' ∨ t = 't') (hc : c = 'C' ∨ c = 'c') :
      SpellsOffset [u, t, c] 0
  | ahead {shift n} (h : SpellsShift shift n) : SpellsOffset ('+' :: shift) n
  | behind {sign shift n} (hsign : sign = '-' ∨ sign = '−') (h : SpellsShift shift n) :
      SpellsOffset (sign :: shift) (-n)

inductive SpellsTime : List Char → Moment → Prop
  | mk {m : Moment} {hour first minute second last fraction}
      (hhour : SpellsField hour m.hour) (hfirst : Space first)
      (hminute : SpellsField minute m.minute) (hsecond : Space second)
      (hlast : SpellsField last m.second) (hfraction : SpellsFraction fraction m.nano)
      (hhourLe : m.hour ≤ 23) (hminuteLe : m.minute ≤ 59) (hsecondLe : m.second ≤ 60) :
      SpellsTime (hour ++ (first ++ ':' :: (minute ++ (second ++ ':' :: (last ++ fraction))))) m

inductive Spells : List Char → Moment → Prop
  | mk {m : Moment} {date mark time space offset tail}
      (hdate : SpellsDate date m.date) (hmark : mark = 'T' ∨ mark = 't' ∨ mark = ' ')
      (htime : SpellsTime time m) (hspace : Space space) (hoffset : SpellsOffset offset m.offset)
      (htail : Space tail) :
      Spells (date ++ mark :: (time ++ (space ++ (offset ++ tail)))) m

theorem dropSpace_append {space : List Char} (h : Space space) (rest : List Char) :
    Text.dropSpace (space ++ rest) = Text.dropSpace rest :=
  List.dropWhile_append_of_pos h

theorem dropSpace_of_space {space : List Char} (h : Space space) : Text.dropSpace space = [] := by
  have hdrop := dropSpace_append h []
  rwa [List.append_nil] at hdrop

theorem exists_space (cs : List Char) : ∃ space, Space space ∧ cs = space ++ Text.dropSpace cs :=
  ⟨cs.takeWhile Text.isWhiteSpace, fun _ hc => List.all_eq_true.mp List.all_takeWhile _ hc,
    (List.takeWhile_append_dropWhile).symm⟩

theorem isDigit_of_isWhiteSpace {c : Char} (h : Text.isWhiteSpace c = true) :
    c.isDigit = false := by
  cases hdigit : c.isDigit with
  | false => rfl
  | true =>
    rw [Text.isWhiteSpace_of_isDigit hdigit] at h
    cases h

theorem endsDigits_space {space rest : List Char} (h : Space space) (hends : Text.EndsDigits rest) :
    Text.EndsDigits (space ++ rest) := by
  cases space with
  | nil => exact hends
  | cons c space => exact Text.endsDigits_cons (isDigit_of_isWhiteSpace (h c List.mem_cons_self)) _

theorem dropSpace_digits {digits : List Char} (hdigits : ∀ c ∈ digits, c.isDigit = true)
    (hne : digits ≠ []) (rest : List Char) : Text.dropSpace (digits ++ rest) = digits ++ rest := by
  obtain ⟨c, digits, rfl⟩ := List.exists_cons_of_ne_nil hne
  exact Text.dropSpace_cons (Text.isWhiteSpace_of_isDigit (hdigits c List.mem_cons_self)) _

theorem digits?_append {width : Option Nat} {digits rest : List Char}
    (hdigits : ∀ c ∈ digits, c.isDigit = true) (hne : digits ≠ [])
    (hfits : ∀ w ∈ width, digits.length ≤ w) (hends : Text.EndsDigits rest) :
    digits? width (digits ++ rest) = some (digits, rest) := by
  have hrun := Text.takeWhile_digits hdigits hends
  cases width with
  | none => simp [digits?, hrun, hne]
  | some w => simp [digits?, hrun, hne, List.take_of_length_le (hfits w rfl)]

theorem isDigits_of_digits? {width : Option Nat} {cs digits rest : List Char}
    (h : digits? width cs = some (digits, rest)) :
    Text.IsDigits digits ∧ (∀ w ∈ width, digits.length ≤ w) ∧ cs = digits ++ rest := by
  have hrun : ∀ c ∈ cs.takeWhile Char.isDigit, c.isDigit = true :=
    fun c hc => List.all_eq_true.mp List.all_takeWhile c hc
  have hfront : cs.takeWhile Char.isDigit <+: cs := List.takeWhile_prefix _
  simp only [digits?, Option.ite_none_left_eq_some, Option.some.injEq, Prod.mk.injEq,
    List.isEmpty_iff] at h
  obtain ⟨hne, hdigits, hrest⟩ := h
  rw [hdigits] at hne hrest
  subst hrest
  cases width with
  | none =>
    subst hdigits
    refine ⟨⟨hne, hrun⟩, ?_, (List.prefix_iff_eq_append.mp hfront).symm⟩
    intro _ h
    cases h
  | some w =>
    subst hdigits
    refine ⟨⟨hne, fun c hc => hrun c (List.mem_of_mem_take hc)⟩, ?_, ?_⟩
    · rintro _ ⟨⟩
      exact List.length_take_le _ _
    · have htaken := (List.take_prefix w (cs.takeWhile Char.isDigit)).trans hfront
      exact (List.prefix_iff_eq_append.mp htaken).symm

theorem field?_of_spells {cs rest : List Char} {n : Nat} (h : SpellsField cs n)
    (hends : Text.EndsDigits rest) : field? (cs ++ rest) = some (n, rest) := by
  obtain ⟨hspace, hdigits, hlength⟩ := h
  rw [List.append_assoc, field?, dropSpace_append hspace, dropSpace_digits hdigits.2 hdigits.1,
    digits?_append hdigits.2 hdigits.1 (by simpa using hlength) hends]
  rfl

theorem spells_of_field? {cs rest : List Char} {n : Nat} (h : field? cs = some (n, rest)) :
    ∃ field, SpellsField field n ∧ cs = field ++ rest := by
  obtain ⟨⟨digits, _⟩, hdigits, heq⟩ := Option.map_eq_some_iff.mp h
  cases heq
  obtain ⟨hdigits, hlength, hcs⟩ := isDigits_of_digits? hdigits
  obtain ⟨space, hspace, hwhole⟩ := exists_space cs
  refine ⟨space ++ digits, ⟨hspace, hdigits, hlength 2 rfl⟩, ?_⟩
  rw [List.append_assoc, ← hcs]
  exact hwhole

theorem mark?_of_space {c : Char} (hc : Text.isWhiteSpace c = false) {space : List Char}
    (h : Space space) (rest : List Char) : mark? c (space ++ c :: rest) = some rest := by
  rw [mark?, dropSpace_append h, Text.dropSpace_cons hc]
  simp

theorem space_of_mark? {c : Char} {cs rest : List Char} (h : mark? c cs = some rest) :
    ∃ space, Space space ∧ cs = space ++ c :: rest := by
  obtain ⟨space, hspace, hwhole⟩ := exists_space cs
  refine ⟨space, hspace, ?_⟩
  unfold mark? at h
  split at h
  · rename_i d tail hdrop
    split at h
    · rename_i heq
      cases h
      rw [hdrop, heq] at hwhole
      exact hwhole
    · cases h
  · cases h

theorem endsDigits_mark {space : List Char} (h : Space space) {c : Char} (hc : c.isDigit = false)
    (rest : List Char) : Text.EndsDigits (space ++ c :: rest) :=
  endsDigits_space h (Text.endsDigits_cons hc rest)

theorem year?_digits {digits rest : List Char} (hdigits : ∀ c ∈ digits, c.isDigit = true)
    (hne : digits ≠ []) (hfits : digits.length ≤ 4) (hends : Text.EndsDigits rest) :
    year? (digits ++ rest) = some ((Text.digitsValue digits : Int), rest) := by
  have hread := digits?_append hdigits hne (by simpa using hfits : ∀ w ∈ some 4, _ ≤ w) hends
  have hdrop := dropSpace_digits hdigits hne rest
  obtain ⟨c, digits, rfl⟩ := List.exists_cons_of_ne_nil hne
  have hdigit : c.isDigit = true := hdigits c List.mem_cons_self
  have hminus : c ≠ '-' := by
    rintro rfl
    cases hdigit
  have hplus : c ≠ '+' := by
    rintro rfl
    cases hdigit
  rw [List.cons_append] at hread hdrop ⊢
  simp [year?, hdrop, hread, hminus, hplus]

theorem year?_sign {digits rest : List Char} (hdigits : ∀ c ∈ digits, c.isDigit = true)
    (hne : digits ≠ []) (hends : Text.EndsDigits rest) :
    year? ('+' :: (digits ++ rest)) = some ((Text.digitsValue digits : Int), rest) ∧
      year? ('-' :: (digits ++ rest)) = some (-(Text.digitsValue digits : Int), rest) := by
  have hread := digits?_append hdigits hne (nofun : ∀ w ∈ none, _ ≤ w) hends
  have hplus : Text.isWhiteSpace '+' = false := by decide
  have hminus : Text.isWhiteSpace '-' = false := by decide
  simp [year?, Text.dropSpace_cons hplus, Text.dropSpace_cons hminus, hread]

theorem year?_of_spells {cs rest : List Char} {year : Int} (h : SpellsYear cs year)
    (hends : Text.EndsDigits rest) : year? (cs ++ rest) = some (year, rest) := by
  cases h with
  | plain hspace hdigits hlength =>
    have hread := year?_digits hdigits.2 hdigits.1 hlength hends
    rw [year?] at hread ⊢
    rwa [List.append_assoc, dropSpace_append hspace]
  | plus hspace hdigits =>
    have hread := (year?_sign hdigits.2 hdigits.1 hends).1
    rw [year?] at hread ⊢
    rwa [List.append_assoc, dropSpace_append hspace]
  | minus hspace hdigits =>
    have hread := (year?_sign hdigits.2 hdigits.1 hends).2
    rw [year?] at hread ⊢
    rwa [List.append_assoc, dropSpace_append hspace]

theorem spells_of_year? {cs rest : List Char} {year : Int} (h : year? cs = some (year, rest)) :
    ∃ text, SpellsYear text year ∧ cs = text ++ rest := by
  obtain ⟨space, hspace, hwhole⟩ := exists_space cs
  unfold year? at h
  split at h
  · rename_i tail hdrop
    obtain ⟨⟨digits, _⟩, hread, heq⟩ := Option.map_eq_some_iff.mp h
    cases heq
    obtain ⟨hdigits, -, rfl⟩ := isDigits_of_digits? hread
    refine ⟨space ++ '-' :: digits, ?_, ?_⟩
    · rw [Int.neg_one_mul]
      exact .minus hspace hdigits
    · rw [hwhole, hdrop]
      simp
  · rename_i tail hdrop
    obtain ⟨⟨digits, _⟩, hread, heq⟩ := Option.map_eq_some_iff.mp h
    cases heq
    obtain ⟨hdigits, -, rfl⟩ := isDigits_of_digits? hread
    refine ⟨space ++ '+' :: digits, ?_, ?_⟩
    · rw [Int.one_mul]
      exact .plus hspace hdigits
    · rw [hwhole, hdrop]
      simp
  · obtain ⟨⟨digits, _⟩, hread, heq⟩ := Option.map_eq_some_iff.mp h
    cases heq
    obtain ⟨hdigits, hlength, hcs⟩ := isDigits_of_digits? hread
    refine ⟨space ++ digits, ?_, ?_⟩
    · rw [Int.one_mul]
      exact .plain hspace hdigits (hlength 4 rfl)
    · rw [List.append_assoc, ← hcs]
      exact hwhole

theorem date?_of_spells {cs rest : List Char} {date : Date} (h : SpellsDate cs date)
    (hends : Text.EndsDigits rest) : date? (cs ++ rest) = some (date, rest) := by
  obtain ⟨hyear, hfirst, hmonth, hsecond, hday, hvalid⟩ := h
  have hdash : Text.isWhiteSpace '-' = false := by decide
  have hdigit : '-'.isDigit = false := by decide
  have hyearRead := fun cs => year?_of_spells hyear (endsDigits_mark hfirst hdigit cs)
  have hmonthRead := fun cs => field?_of_spells hmonth (endsDigits_mark hsecond hdigit cs)
  simp [date?, hyearRead, hmonthRead, field?_of_spells hday hends, mark?_of_space hdash hfirst,
    mark?_of_space hdash hsecond, hvalid]

theorem spells_of_date? {cs rest : List Char} {date : Date} (h : date? cs = some (date, rest)) :
    ∃ text, SpellsDate text date ∧ cs = text ++ rest := by
  simp only [date?, Option.bind_eq_bind, Option.bind_eq_some_iff] at h
  obtain ⟨⟨year, _⟩, hreadYear, _, hreadFirst, ⟨month, _⟩, hreadMonth, _, hreadSecond, ⟨day, _⟩,
    hreadDay, h⟩ := h
  obtain ⟨yearText, hyear, rfl⟩ := spells_of_year? hreadYear
  obtain ⟨first, hfirst, rfl⟩ := space_of_mark? hreadFirst
  obtain ⟨monthText, hmonth, rfl⟩ := spells_of_field? hreadMonth
  obtain ⟨second, hsecond, rfl⟩ := space_of_mark? hreadSecond
  obtain ⟨dayText, hday, rfl⟩ := spells_of_field? hreadDay
  split at h
  · rename_i hvalid
    cases h
    have hdate := @SpellsDate.mk ⟨year, month, day⟩ _ _ _ _ _ hyear hfirst hmonth hsecond hday
      hvalid
    exact ⟨_, hdate, by simp⟩
  · cases h

theorem nanos_eq {digits : List Char} (h : Text.IsDigits digits) :
    Text.digitsValue digits * 10 ^ 9 / 10 ^ digits.length =
      Text.digitsValue (digits.take 9) * Nat.pow 10 (9 - (digits.take 9).length) := by
  change _ = Text.digitsValue (digits.take 9) * 10 ^ (9 - (digits.take 9).length)
  rcases Nat.le_total digits.length 9 with hlength | hlength
  · have hnine : 10 ^ 9 = 10 ^ (9 - digits.length) * 10 ^ digits.length := by
      rw [← Nat.pow_add, Nat.sub_add_cancel hlength]
    rw [List.take_of_length_le hlength, hnine, ← Nat.mul_assoc,
      Nat.mul_div_cancel _ (Nat.pow_pos (by decide))]
  · have hlater : Text.digitsValue (digits.drop 9) < 10 ^ (digits.drop 9).length :=
      Text.digitsValue_lt fun c hc => h.2 c (List.mem_of_mem_drop hc)
    have hvalue := Text.digitsValue_append (digits.take 9) (digits.drop 9)
    have hpow : 10 ^ digits.length = 10 ^ (digits.drop 9).length * 10 ^ 9 := by
      rw [← Nat.pow_add, List.length_drop, Nat.sub_add_cancel hlength]
    rw [List.take_append_drop] at hvalue
    rw [List.length_take_of_le hlength, hvalue, hpow,
      Nat.mul_div_mul_right _ _ (Nat.pow_pos (by decide)), Nat.add_comm,
      Nat.add_mul_div_right _ _ (Nat.pow_pos (by decide)), Nat.div_eq_of_lt hlater]
    simp

theorem fraction?_of_spells {cs rest : List Char} {nano : Nat} (h : SpellsFraction cs nano)
    (hends : Text.EndsDigits rest) (hpoint : ∀ c ∈ rest.head?, c ≠ '.') :
    fraction? (cs ++ rest) = some (nano, rest) := by
  cases h with
  | none =>
    cases rest with
    | nil => rfl
    | cons c rest =>
      have hne := hpoint c rfl
      simp [fraction?, hne]
  | @digits digits h =>
    have htaken : digits.take 9 ≠ [] := by simp [h.1]
    rw [nanos_eq h]
    simp [fraction?, digits?, Text.takeWhile_digits h.2 hends, Text.dropWhile_digits h.2 hends,
      htaken]

theorem endsDigits_fraction {cs rest : List Char} {nano : Nat} (h : SpellsFraction cs nano)
    (hends : Text.EndsDigits rest) : Text.EndsDigits (cs ++ rest) := by
  cases h with
  | none => exact hends
  | digits => exact Text.endsDigits_cons (by decide) _

theorem spells_of_fraction? {cs rest : List Char} {nano : Nat}
    (h : fraction? cs = some (nano, rest)) :
    ∃ text, SpellsFraction text nano ∧ cs = text ++ rest := by
  unfold fraction? at h
  split at h
  · rename_i tail
    obtain ⟨⟨digits, _⟩, hread, heq⟩ := Option.bind_eq_some_iff.mp h
    cases heq
    simp only [digits?, Option.ite_none_left_eq_some, Option.some.injEq, Prod.mk.injEq,
      List.isEmpty_iff] at hread
    obtain ⟨hne, rfl, -⟩ := hread
    have hrun : Text.IsDigits (tail.takeWhile Char.isDigit) := by
      refine ⟨?_, fun c hc => List.all_eq_true.mp List.all_takeWhile c hc⟩
      intro hempty
      exact hne (by rw [hempty, List.take_nil])
    refine ⟨'.' :: tail.takeWhile Char.isDigit, ?_, ?_⟩
    · rw [← nanos_eq hrun]
      exact .digits hrun
    · rw [List.cons_append, List.takeWhile_append_dropWhile]
  · cases h
    exact ⟨[], .none, rfl⟩

theorem twoDigits?_cons {a b : Char} (h : ∀ e ∈ [a, b], e.isDigit = true) (rest : List Char) :
    twoDigits? (a :: b :: rest) = some (Text.digitsValue [a, b], rest) := by
  obtain ⟨ha, hb⟩ := List.forall_mem_cons.mp h
  simp [twoDigits?, ha, hb b List.mem_cons_self]

theorem exists_of_twoDigits? {cs rest : List Char} {n : Nat} (h : twoDigits? cs = some (n, rest)) :
    ∃ a b, (∀ e ∈ [a, b], e.isDigit = true) ∧ cs = a :: b :: rest ∧
      n = Text.digitsValue [a, b] := by
  unfold twoDigits? at h
  split at h
  · rename_i a b rest
    split at h
    · rename_i hdigits
      cases h
      obtain ⟨ha, hb⟩ := Bool.and_eq_true_iff.mp hdigits
      exact ⟨a, b, by simp [ha, hb], rfl, rfl⟩
    · cases h
  · cases h

def isGap (c : Char) : Bool :=
  c = ':' || Text.isWhiteSpace c

theorem isGap_iff {c : Char} : isGap c = true ↔ c = ':' ∨ Text.isWhiteSpace c = true := by
  simp [isGap]

theorem isGap_of_isDigit {c : Char} (h : c.isDigit = true) : isGap c = false := by
  have hcolon : c ≠ ':' := by
    rintro rfl
    cases h
  simp [isGap, hcolon, Text.isWhiteSpace_of_isDigit h]

theorem offsetSize?_of_spells {cs rest : List Char} {n : Int} (h : SpellsShift cs n) :
    offsetSize? (cs ++ rest) = some (60 * n, rest) := by
  obtain ⟨hhours, hgap, hminutes, hday, hhour⟩ := h
  rename_i a b gap c d
  have hdrop : ((gap ++ c :: d :: rest).dropWhile fun c => c = ':' || Text.isWhiteSpace c) =
      c :: d :: rest := by
    change (gap ++ c :: d :: rest).dropWhile isGap = c :: d :: rest
    have hstop := isGap_of_isDigit (hminutes c List.mem_cons_self)
    rw [List.dropWhile_append_of_pos fun e he => isGap_iff.mpr (hgap e he),
      List.dropWhile_cons_of_neg (by simp [hstop])]
  have hsize : (3600 : Int) * Text.digitsValue [a, b] + 60 * Text.digitsValue [c, d] =
      60 * (60 * Text.digitsValue [a, b] + Text.digitsValue [c, d]) := by
    ring
  have hlt : 60 * (60 * (Text.digitsValue [a, b] : Int) + Text.digitsValue [c, d]) <
      Instant.secondsPerDay := by
    simp only [Instant.secondsPerDay]
    omega
  have htext : a :: b :: (gap ++ [c, d]) ++ rest = a :: b :: (gap ++ c :: d :: rest) := by simp
  simp only [htext, offsetSize?, twoDigits?_cons hhours, Option.bind_eq_bind, Option.bind_some,
    hdrop, twoDigits?_cons hminutes, hhour, hsize, hlt, and_self, if_true]

theorem spells_of_offsetSize? {cs rest : List Char} {size : Int}
    (h : offsetSize? cs = some (size, rest)) :
    ∃ text n, SpellsShift text n ∧ cs = text ++ rest ∧ size = 60 * n := by
  simp only [offsetSize?, Option.bind_eq_bind, Option.bind_eq_some_iff] at h
  obtain ⟨⟨hours, tail⟩, hreadHours, ⟨minutes, _⟩, hreadMinutes, h⟩ := h
  obtain ⟨a, b, hhours, rfl, rfl⟩ := exists_of_twoDigits? hreadHours
  obtain ⟨c, d, hminutes, hdrop, rfl⟩ := exists_of_twoDigits? hreadMinutes
  have hgap : ∀ e ∈ tail.takeWhile isGap, e = ':' ∨ Text.isWhiteSpace e = true :=
    fun e he => isGap_iff.mp (List.all_eq_true.mp List.all_takeWhile e he)
  have htail : tail = tail.takeWhile isGap ++ tail.dropWhile isGap :=
    List.takeWhile_append_dropWhile.symm
  split at h
  · rename_i hbounds
    cases h
    simp only [Instant.secondsPerDay] at hbounds
    refine ⟨_, _, .mk hhours hgap hminutes (by omega) hbounds.1, ?_, by ring⟩
    have hrest : tail.dropWhile isGap = c :: d :: _ := hdrop
    rw [hrest] at htail
    rw [List.cons_append, List.cons_append, List.append_assoc]
    exact congrArg (fun tail => a :: b :: tail) htail
  · cases h

theorem eq_or_eq_of_toLower {c lower upper : Char} (h : c.toLower = lower)
    (hupper : lower.val - 32 = upper.val) : c = upper ∨ c = lower := by
  unfold Char.toLower at h
  split at h
  · left
    have hvalue : c.val + 32 = lower.val := congrArg Char.val h
    apply Char.ext
    rw [← hupper, ← hvalue, UInt32.add_sub_cancel]
  · exact .inr h

theorem offset?_of_spells {cs rest : List Char} {n : Int} (h : SpellsOffset cs n) :
    offset? (cs ++ rest) = some (60 * n, rest) := by
  cases h with
  | zulu hc => rcases hc with rfl | rfl <;> rfl
  | utc hu ht hc =>
    rcases hu with rfl | rfl <;> rcases ht with rfl | rfl <;> rcases hc with rfl | rfl <;> rfl
  | ahead h => exact offsetSize?_of_spells h
  | behind hsign h =>
    have hread := @offsetSize?_of_spells _ rest _ h
    rcases hsign with rfl | rfl <;> simp [offset?, hread]

theorem spells_of_offset? {cs rest : List Char} {offset : Int}
    (h : offset? cs = some (offset, rest)) :
    ∃ text n, SpellsOffset text n ∧ cs = text ++ rest ∧ offset = 60 * n := by
  unfold offset? at h
  split at h
  · cases h
    exact ⟨['Z'], 0, .zulu (.inl rfl), rfl, rfl⟩
  · cases h
    exact ⟨['z'], 0, .zulu (.inr rfl), rfl, rfl⟩
  · obtain ⟨text, n, hshift, rfl, rfl⟩ := spells_of_offsetSize? h
    exact ⟨'+' :: text, n, .ahead hshift, rfl, rfl⟩
  · obtain ⟨⟨size, _⟩, hsize, heq⟩ := Option.map_eq_some_iff.mp h
    cases heq
    obtain ⟨text, n, hshift, rfl, rfl⟩ := spells_of_offsetSize? hsize
    exact ⟨'-' :: text, -n, .behind (.inl rfl) hshift, rfl, by ring⟩
  · obtain ⟨⟨size, _⟩, hsize, heq⟩ := Option.map_eq_some_iff.mp h
    cases heq
    obtain ⟨text, n, hshift, rfl, rfl⟩ := spells_of_offsetSize? hsize
    exact ⟨'−' :: text, -n, .behind (.inr rfl) hshift, rfl, by ring⟩
  · split at h
    · rename_i hletters
      cases h
      obtain ⟨hu, ht, hc⟩ := hletters
      exact ⟨_, 0, .utc (eq_or_eq_of_toLower hu rfl) (eq_or_eq_of_toLower ht rfl)
        (eq_or_eq_of_toLower hc rfl), rfl, rfl⟩
    · cases h
  · cases h

theorem first_of_spellsOffset {cs : List Char} {n : Int} (h : SpellsOffset cs n) :
    ∃ c tail, cs = c :: tail ∧ c.isDigit = false ∧ Text.isWhiteSpace c = false ∧ c ≠ '.' := by
  cases h with
  | zulu hc => rcases hc with rfl | rfl <;> exact ⟨_, _, rfl, by decide, by decide, by decide⟩
  | utc hu => rcases hu with rfl | rfl <;> exact ⟨_, _, rfl, by decide, by decide, by decide⟩
  | ahead => exact ⟨_, _, rfl, by decide, by decide, by decide⟩
  | behind hsign =>
    rcases hsign with rfl | rfl <;> exact ⟨_, _, rfl, by decide, by decide, by decide⟩

structure EndsTime (rest : List Char) : Prop where
  endsDigits : Text.EndsDigits rest
  ne_point : ∀ c ∈ rest.head?, c ≠ '.'

theorem endsTime_of_spells {space offset : List Char} (hspace : Space space) {n : Int}
    (hoffset : SpellsOffset offset n) (rest : List Char) :
    EndsTime (space ++ (offset ++ rest)) := by
  obtain ⟨c, offset, rfl, hdigit, -, hpoint⟩ := first_of_spellsOffset hoffset
  refine ⟨endsDigits_space hspace (Text.endsDigits_cons hdigit _), ?_⟩
  cases space with
  | nil =>
    rintro _ ⟨⟩
    exact hpoint
  | cons e space =>
    rintro _ ⟨⟩ rfl
    cases hspace '.' List.mem_cons_self

theorem time?_of_spells {cs rest : List Char} {m : Moment} (h : SpellsTime cs m)
    (hends : EndsTime rest) : time? (cs ++ rest) = some (m.time, rest) := by
  obtain ⟨hhour, hfirst, hminute, hsecond, hlast, hfraction, hhourLe, hminuteLe, hsecondLe⟩ := h
  have hcolon : Text.isWhiteSpace ':' = false := by decide
  have hdigit : ':'.isDigit = false := by decide
  have hhourRead := fun cs => field?_of_spells hhour (endsDigits_mark hfirst hdigit cs)
  have hminuteRead := fun cs => field?_of_spells hminute (endsDigits_mark hsecond hdigit cs)
  have hlastRead := field?_of_spells hlast (endsDigits_fraction hfraction hends.endsDigits)
  have hfractionRead := fraction?_of_spells hfraction hends.endsDigits hends.ne_point
  simp only [time?, List.append_assoc, List.cons_append, hhourRead, mark?_of_space hcolon hfirst,
    hminuteRead, mark?_of_space hcolon hsecond, hlastRead, hfractionRead, Option.bind_eq_bind,
    Option.bind_some, hhourLe, hminuteLe, hsecondLe, and_self, if_true, Moment.time]
  split <;> rfl

theorem spells_of_time? {cs rest : List Char} {time : Nat × Nat}
    (h : time? cs = some (time, rest)) (date : Date) (offset : Int) :
    ∃ text m, SpellsTime text m ∧ cs = text ++ rest ∧ m.time = time ∧ m.date = date ∧
      m.offset = offset := by
  simp only [time?, Option.bind_eq_bind, Option.bind_eq_some_iff] at h
  obtain ⟨⟨hour, _⟩, hreadHour, _, hreadFirst, ⟨minute, _⟩, hreadMinute, _, hreadSecond,
    ⟨second, _⟩, hreadLast, ⟨nano, _⟩, hreadFraction, h⟩ := h
  obtain ⟨hourText, hhour, rfl⟩ := spells_of_field? hreadHour
  obtain ⟨first, hfirst, rfl⟩ := space_of_mark? hreadFirst
  obtain ⟨minuteText, hminute, rfl⟩ := spells_of_field? hreadMinute
  obtain ⟨gap, hgap, rfl⟩ := space_of_mark? hreadSecond
  obtain ⟨lastText, hlast, rfl⟩ := spells_of_field? hreadLast
  obtain ⟨fraction, hfraction, rfl⟩ := spells_of_fraction? hreadFraction
  split at h
  · rename_i hbounds
    obtain ⟨hhourLe, hminuteLe, hsecondLe⟩ := hbounds
    have htime := @SpellsTime.mk ⟨date, hour, minute, second, nano, offset⟩ _ _ _ _ _ _ hhour hfirst
      hminute hgap hlast hfraction hhourLe hminuteLe hsecondLe
    refine ⟨_, _, htime, ?_, ?_, rfl, rfl⟩
    · split at h <;> cases h <;> simp
    · simp only [Moment.time]
      split
      · rename_i hleap
        rw [if_pos hleap] at h
        cases h
        rfl
      · rename_i hplain
        rw [if_neg hplain] at h
        cases h
        rfl
  · cases h

theorem read?_of_spells {s : String} {m : Moment} (h : Spells s.toList m) :
    read? s = if m.instant.isInRange then some m.instant else none := by
  unfold read?
  generalize s.toList = cs at h
  obtain ⟨hdate, hmark, htime, hspace, hoffset, htail⟩ := h
  rename_i date mark time space offset tail
  have hnext : mark.isDigit = false := by rcases hmark with rfl | rfl | rfl <;> decide
  have hdateRead := date?_of_spells hdate
    (Text.endsDigits_cons hnext (time ++ (space ++ (offset ++ tail))))
  have htimeRead := time?_of_spells htime (endsTime_of_spells hspace hoffset tail)
  have hoffsetRead := @offset?_of_spells _ tail _ hoffset
  have hdrop : Text.dropSpace (space ++ (offset ++ tail)) = offset ++ tail := by
    obtain ⟨c, offset, rfl, -, hstart, -⟩ := first_of_spellsOffset hoffset
    rw [dropSpace_append hspace]
    exact Text.dropSpace_cons hstart _
  have hend : (Text.dropSpace tail).isEmpty = true := by
    rw [dropSpace_of_space htail]
    rfl
  simp only [hdateRead, Option.bind_eq_bind, Option.bind_some]
  rcases hmark with rfl | rfl | rfl <;>
    · simp only [Option.bind_some, htimeRead, hdrop, hoffsetRead, hend, Bool.true_and,
        Moment.instant]
      rfl

theorem spells_of_clock {date : Date} {cs : List Char} {t : Instant}
    (h : (do
      let ((secondOfDay, nano), cs) ← time? cs
      let (offset, cs) ← offset? (Text.dropSpace cs)
      let t := Instant.ofLocal date secondOfDay nano offset
      if (Text.dropSpace cs).isEmpty && t.isInRange then some t else none) = some t) :
    ∃ m time space offset tail, m.date = date ∧ SpellsTime time m ∧ Space space ∧
      SpellsOffset offset m.offset ∧ Space tail ∧ cs = time ++ (space ++ (offset ++ tail)) := by
  simp only [Option.bind_eq_bind, Option.bind_eq_some_iff] at h
  obtain ⟨⟨⟨secondOfDay, nano⟩, rest⟩, hreadTime, ⟨_, end_⟩, hreadOffset, h⟩ := h
  obtain ⟨offset, n, hoffset, hrest, -⟩ := spells_of_offset? hreadOffset
  obtain ⟨time, m, htime, rfl, -, hdate, hshift⟩ := spells_of_time? hreadTime date n
  obtain ⟨space, hspace, hwhole⟩ := exists_space rest
  obtain ⟨tail, htail, hlast⟩ := exists_space end_
  split at h
  · rename_i hend
    have hempty := List.isEmpty_iff.mp (Bool.and_eq_true_iff.mp hend).1
    dsimp only at hempty hrest
    rw [hempty, List.append_nil] at hlast
    rw [← hshift] at hoffset
    refine ⟨m, time, space, offset, tail, hdate, htime, hspace, hoffset, htail, ?_⟩
    rw [← hlast, ← hrest, ← hwhole]
  · cases h

theorem spells_of_read? {s : String} {t : Instant} (h : read? s = some t) :
    ∃ m, Spells s.toList m := by
  obtain ⟨⟨date, cs⟩, hreadDate, h⟩ := Option.bind_eq_some_iff.mp h
  obtain ⟨dateText, hdate, hwhole⟩ := spells_of_date? hreadDate
  rw [hwhole]
  dsimp only at h
  split at h
  · obtain ⟨m, time, space, offset, tail, rfl, htime, hspace, hoffset, htail, rfl⟩ :=
      spells_of_clock h
    exact ⟨m, .mk hdate (.inl rfl) htime hspace hoffset htail⟩
  · obtain ⟨m, time, space, offset, tail, rfl, htime, hspace, hoffset, htail, rfl⟩ :=
      spells_of_clock h
    exact ⟨m, .mk hdate (.inr (.inl rfl)) htime hspace hoffset htail⟩
  · obtain ⟨m, time, space, offset, tail, rfl, htime, hspace, hoffset, htail, rfl⟩ :=
      spells_of_clock h
    exact ⟨m, .mk hdate (.inr (.inr rfl)) htime hspace hoffset htail⟩
  · cases h

theorem nano_lt_of_spells {cs : List Char} {nano : Nat} (h : SpellsFraction cs nano) :
    nano < Instant.nanosPerSecond := by
  cases h with
  | none => decide
  | @digits digits h =>
    have hlt : Text.digitsValue digits * 10 ^ 9 < 10 ^ digits.length * 10 ^ 9 :=
      Nat.mul_lt_mul_of_pos_right (Text.digitsValue_lt h.2) (Nat.pow_pos (by decide))
    exact Nat.div_lt_of_lt_mul hlt

theorem onClock_of_spells {cs : List Char} {m : Moment} (h : Spells cs m) : m.OnClock := by
  obtain ⟨hdate, -, htime, -, -, -⟩ := h
  obtain ⟨-, -, -, -, -, hvalid⟩ := hdate
  obtain ⟨-, -, -, -, -, hfraction, hhourLe, hminuteLe, hsecondLe⟩ := htime
  exact ⟨Date.inCalendar_of_isValid hvalid, hhourLe, hminuteLe, hsecondLe,
    nano_lt_of_spells hfraction⟩

theorem read?_eq_some_iff {s : String} {t : Instant} :
    read? s = some t ↔ t.isInRange = true ∧ ∃ m, Spells s.toList m ∧ m.instant = t := by
  constructor
  · intro h
    obtain ⟨m, hm⟩ := spells_of_read? h
    rw [read?_of_spells hm, Option.ite_none_right_eq_some] at h
    obtain ⟨hrange, ⟨⟩⟩ := h
    exact ⟨hrange, m, hm, rfl⟩
  · rintro ⟨hrange, m, hm, rfl⟩
    rw [read?_of_spells hm, if_pos hrange]

theorem read?_eq_of_sameInstant {s other : String} {m n : Moment} (hm : Spells s.toList m)
    (hn : Spells other.toList n) (h : m.SameInstant n) : read? s = read? other := by
  have hinstant := (Moment.sameInstant_iff (onClock_of_spells hm) (onClock_of_spells hn)).mp h
  rw [read?_of_spells hm, read?_of_spells hn, hinstant]

end Timestamp

end RightsPolicy
