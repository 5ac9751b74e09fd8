import RightsPolicy.Json.Printer
import RightsPolicy.Json.Token
import RightsPolicy.Proofs.Text.Digits

namespace RightsPolicy.Json

def IsWord (n : Int) : Prop :=
  -9223372036854775808 ≤ n ∧ n < 18446744073709551616

instance (n : Int) : Decidable (IsWord n) :=
  inferInstanceAs (Decidable (_ ∧ _))

namespace Number

def signChars (negative : Bool) : List Char :=
  if negative then ['-'] else []

def fractionChars : Option (List Char) → List Char
  | none => []
  | some digits => '.' :: digits

inductive SpellsExponent : List Char → Option Int → Prop
  | none : SpellsExponent [] none
  | unsigned {mark digits} (hmark : mark = 'e' ∨ mark = 'E') (h : Text.IsDigits digits) :
      SpellsExponent (mark :: digits) (some (Text.digitsValue digits))
  | plus {mark digits} (hmark : mark = 'e' ∨ mark = 'E') (h : Text.IsDigits digits) :
      SpellsExponent (mark :: '+' :: digits) (some (Text.digitsValue digits))
  | minus {mark digits} (hmark : mark = 'e' ∨ mark = 'E') (h : Text.IsDigits digits) :
      SpellsExponent (mark :: '-' :: digits) (some (-Text.digitsValue digits))

inductive Spells : List Char → Parts → Prop
  | mk {parts : Parts} {tail : List Char} (hwhole : Text.IsDigits parts.whole)
      (hzero : parts.whole.head? = some '0' → parts.whole = ['0'])
      (hfraction : ∀ digits ∈ parts.fraction, Text.IsDigits digits)
      (hexponent : SpellsExponent tail parts.exponent) :
      Spells (signChars parts.negative ++ (parts.whole ++ (fractionChars parts.fraction ++ tail)))
        parts

theorem digits?_eq {digits : List Char} (h : Text.IsDigits digits) :
    Text.digits? digits = some (digits, []) := by
  have hends : Text.EndsDigits [] := by simp [Text.EndsDigits]
  have hread := Text.digits?_append h hends
  rwa [List.append_nil] at hread

theorem exponent?_of_spells {tail : List Char} {exponent : Option Int}
    (h : SpellsExponent tail exponent) : exponent? tail = some exponent := by
  have hunsigned {mark : Char} {digits : List Char} (hmark : mark = 'e' ∨ mark = 'E')
      (h : Text.IsDigits digits) :
      exponent? (mark :: digits) = some (some (Text.digitsValue digits : Int)) := by
    obtain ⟨c, rest, rfl⟩ := List.exists_cons_of_ne_nil h.1
    have hplus : c ≠ '+' := h.ne List.mem_cons_self (by decide)
    have hminus : c ≠ '-' := h.ne List.mem_cons_self (by decide)
    rcases hmark with rfl | rfl <;> simp [exponent?, hplus, hminus, digits?_eq h]
  cases h with
  | none => rfl
  | unsigned hmark h => exact hunsigned hmark h
  | plus hmark h => rcases hmark with rfl | rfl <;> simp [exponent?, digits?_eq h]
  | minus hmark h => rcases hmark with rfl | rfl <;> simp [exponent?, digits?_eq h]

theorem endsDigits_exponent {tail : List Char} {exponent : Option Int}
    (h : SpellsExponent tail exponent) : Text.EndsDigits tail := by
  cases h with
  | none => simp [Text.EndsDigits]
  | _ hmark => rcases hmark with rfl | rfl <;> exact Text.endsDigits_cons (by decide) _

theorem endsDigits_fraction {tail : List Char} {exponent : Option Int}
    (h : SpellsExponent tail exponent) (fraction : Option (List Char)) :
    Text.EndsDigits (fractionChars fraction ++ tail) := by
  cases fraction with
  | none => exact endsDigits_exponent h
  | some digits => exact Text.endsDigits_cons (by decide) _

theorem fraction?_of_spells {tail : List Char} {exponent : Option Int}
    (h : SpellsExponent tail exponent) {fraction : Option (List Char)}
    (hfraction : ∀ digits ∈ fraction, Text.IsDigits digits) :
    fraction? (fractionChars fraction ++ tail) = some (fraction, tail) := by
  cases fraction with
  | none =>
    cases h with
    | none => rfl
    | _ hmark => rcases hmark with rfl | rfl <;> rfl
  | some digits =>
    have hread := Text.digits?_append (hfraction digits rfl) (endsDigits_exponent h)
    simp [fraction?, fractionChars, hread]

theorem whole?_append {whole rest : List Char} (hwhole : Text.IsDigits whole)
    (hzero : whole.head? = some '0' → whole = ['0']) (hends : Text.EndsDigits rest) :
    whole? (whole ++ rest) = some (whole, rest) := by
  rw [whole?, Text.digits?_append hwhole hends]
  split
  · rename_i second digits _ h
    simp only [Option.some.injEq, Prod.mk.injEq] at h
    obtain ⟨rfl, -⟩ := h
    simpa using hzero rfl
  · rfl

theorem parts?_of_spells {cs : List Char} {parts : Parts} (h : Spells cs parts) :
    parts? cs = some parts := by
  cases h with
  | @mk _ tail hwhole hzero hfraction hexponent =>
    obtain ⟨negative, whole, fraction, exponent⟩ := parts
    dsimp only at hwhole hzero hfraction hexponent ⊢
    have hwholeRead := whole?_append hwhole hzero (endsDigits_fraction hexponent fraction)
    have hfractionRead := fraction?_of_spells hexponent hfraction
    have hexponentRead := exponent?_of_spells hexponent
    cases negative with
    | true => simp [parts?, signChars, hwholeRead, hfractionRead, hexponentRead]
    | false =>
      obtain ⟨c, digits, rfl⟩ := List.exists_cons_of_ne_nil hwhole.1
      have hminus : c ≠ '-' := hwhole.ne List.mem_cons_self (by decide)
      rw [List.cons_append] at hwholeRead
      simp [parts?, signChars, hminus, hwholeRead, hfractionRead, hexponentRead]

theorem read?_of_spells {cs : List Char} {parts : Parts} (h : Spells cs parts) :
    read? cs = some (ofParts parts) := by
  rw [read?, parts?_of_spells h, Option.map_some]

theorem eq_zero_of_head?_toDigits {n : Nat} (h : (Nat.toDigits 10 n).head? = some '0') :
    Nat.toDigits 10 n = ['0'] := by
  cases n with
  | zero => rfl
  | succ n => exact absurd h (Text.head?_toDigits_ne (n + 1) (Nat.succ_pos n))

theorem spells_integerChars (n : Int) :
    Spells (integerChars n) ⟨decide (n < 0), Nat.toDigits 10 n.natAbs, none, none⟩ := by
  have h := @Spells.mk ⟨decide (n < 0), Nat.toDigits 10 n.natAbs, none, none⟩ []
    (Text.isDigits_toDigits _) eq_zero_of_head?_toDigits nofun .none
  unfold integerChars
  rw [Nat.toList_repr]
  split
  · rename_i hneg
    simpa [signChars, fractionChars, hneg] using h
  · rename_i hneg
    simpa [signChars, fractionChars, hneg] using h

theorem ofParts_integer {n : Int} (h : IsWord n) :
    ofParts ⟨decide (n < 0), Nat.toDigits 10 n.natAbs, none, none⟩ = .integer n := by
  obtain ⟨hlow, hhigh⟩ := h
  have hvalue := Text.digitsValue_toDigits n.natAbs
  have hinteger : integer? ⟨decide (n < 0), Nat.toDigits 10 n.natAbs, none, none⟩ = some n := by
    by_cases hneg : n < 0
    · have hsize : 0 < n.natAbs ∧ n.natAbs ≤ UInt64.size / 2 := by
        simp only [UInt64.size]
        omega
      have habs : -(n.natAbs : Int) = n := by omega
      simp only [integer?, hneg, hvalue, habs, if_pos hsize]
      rfl
    · have hsize : n.natAbs < UInt64.size := by
        simp only [UInt64.size]
        omega
      have habs : (n.natAbs : Int) = n := by omega
      simp only [integer?, hneg, hvalue, habs, fitsWord, hsize]
      rfl
  simp only [ofParts, hinteger]

end Number

namespace Scan

open Number (Place)

def EndsNumber (rest : List Char) : Prop :=
  ∀ c, rest.head? = some c → Place.whole.next? c = none

inductive Enters : Place → Place → Prop
  | sign : Enters .sign .whole
  | point : Enters .point .fraction
  | mark : Enters .mark .exponent
  | exponentSign : Enters .exponentSign .exponent
  | whole : Enters .whole .whole
  | fraction : Enters .fraction .fraction
  | exponent : Enters .exponent .exponent

theorem Enters.next? {place target : Place} (h : Enters place target) {c : Char}
    (hc : c.isDigit = true) : place.next? c = some target := by
  cases h <;> simp [Place.next?, hc]

theorem Enters.stays {place target : Place} (h : Enters place target) : Enters target target := by
  cases h <;> constructor

theorem run_digits {place target : Place} (h : Enters place target) {digits : List Char}
    (hdigits : Text.IsDigits digits) (cs rest : List Char) :
    (number cs place).run (digits ++ rest) = (number (digits.reverse ++ cs) target).run rest := by
  obtain ⟨hne, hdigits⟩ := hdigits
  induction digits generalizing place cs with
  | nil => exact absurd rfl hne
  | cons c digits ih =>
    obtain ⟨hc, hdigits⟩ := List.forall_mem_cons.mp hdigits
    have hstep : step (number cs place) c = ([], number (c :: cs) target) := by
      simp [step, h.next? hc]
    rw [List.cons_append, run, hstep, List.nil_append]
    cases digits with
    | nil => rfl
    | cons d digits =>
      rw [ih h.stays (c :: cs) (List.cons_ne_nil _ _) hdigits]
      simp

theorem start_digit {c : Char} (h : c.isDigit = true) : start c = ([], .number [c] .whole) := by
  have hne (d : Char) (hd : d.isDigit = false) : c ≠ d := by
    rintro rfl
    rw [h] at hd
    cases hd
  simp [start, isBlank, h, hne]

theorem run_sign {negative : Bool} {whole : List Char} (hwhole : Text.IsDigits whole)
    (rest : List Char) :
    between.run (Number.signChars negative ++ (whole ++ rest)) =
      (number ((Number.signChars negative ++ whole).reverse) .whole).run rest := by
  cases negative with
  | true =>
    have hstart : between.run ('-' :: (whole ++ rest)) =
        (number ['-'] .sign).run (whole ++ rest) := rfl
    have hrun := run_digits .sign hwhole ['-'] rest
    simpa [Number.signChars, hstart] using hrun
  | false =>
    obtain ⟨c, digits, rfl⟩ := List.exists_cons_of_ne_nil hwhole.1
    obtain ⟨hc, hdigits⟩ := List.forall_mem_cons.mp hwhole.2
    have hstep : step between c = ([], number [c] .whole) := start_digit hc
    simp only [Number.signChars, Bool.false_eq_true, if_false, List.nil_append, List.cons_append,
      run, hstep]
    cases digits with
    | nil => rfl
    | cons d digits =>
      rw [run_digits .whole ⟨List.cons_ne_nil _ _, hdigits⟩ [c] rest]
      simp

theorem run_fraction {fraction : Option (List Char)}
    (hfraction : ∀ digits ∈ fraction, Text.IsDigits digits) (cs rest : List Char) :
    ∃ place, (place = .whole ∨ place = .fraction) ∧
      (number cs .whole).run (Number.fractionChars fraction ++ rest) =
        (number ((Number.fractionChars fraction).reverse ++ cs) place).run rest := by
  cases fraction with
  | none => exact ⟨.whole, .inl rfl, rfl⟩
  | some digits =>
    refine ⟨.fraction, .inr rfl, ?_⟩
    have hpoint : (number cs .whole).run ('.' :: (digits ++ rest)) =
        (number ('.' :: cs) .point).run (digits ++ rest) := rfl
    rw [Number.fractionChars, List.cons_append, hpoint, run_digits .point (hfraction digits rfl)]
    simp

theorem run_exponent {place : Place} (hplace : place = .whole ∨ place = .fraction)
    {tail : List Char} {exponent : Option Int} (h : Number.SpellsExponent tail exponent)
    (cs rest : List Char) :
    ∃ place', (place' = .whole ∨ place' = .fraction ∨ place' = .exponent) ∧
      (number cs place).run (tail ++ rest) = (number (tail.reverse ++ cs) place').run rest := by
  have hmark {mark : Char} (hmark : mark = 'e' ∨ mark = 'E') (more : List Char) :
      (number cs place).run (mark :: more) = (number (mark :: cs) .mark).run more := by
    rcases hplace with rfl | rfl <;> rcases hmark with rfl | rfl <;> rfl
  cases h with
  | none => exact ⟨place, by rcases hplace with rfl | rfl <;> simp, rfl⟩
  | @unsigned mark digits he hdigits =>
    refine ⟨.exponent, .inr (.inr rfl), ?_⟩
    rw [List.cons_append, hmark he, run_digits .mark hdigits]
    simp
  | @plus mark digits he hdigits =>
    refine ⟨.exponent, .inr (.inr rfl), ?_⟩
    have hsign : (number (mark :: cs) .mark).run ('+' :: (digits ++ rest)) =
        (number ('+' :: mark :: cs) .exponentSign).run (digits ++ rest) := rfl
    rw [List.cons_append, List.cons_append, hmark he, hsign, run_digits .exponentSign hdigits]
    simp
  | @minus mark digits he hdigits =>
    refine ⟨.exponent, .inr (.inr rfl), ?_⟩
    have hsign : (number (mark :: cs) .mark).run ('-' :: (digits ++ rest)) =
        (number ('-' :: mark :: cs) .exponentSign).run (digits ++ rest) := rfl
    rw [List.cons_append, List.cons_append, hmark he, hsign, run_digits .exponentSign hdigits]
    simp

theorem run_end {place : Place} (hplace : place = .whole ∨ place = .fraction ∨ place = .exponent)
    (cs rest : List Char) (hends : EndsNumber rest) :
    (number cs place).run rest = .ofNumber cs.reverse :: between.run rest := by
  cases rest with
  | nil => rfl
  | cons c rest =>
    have hnone : place.next? c = none := by
      have hwhole := hends c rfl
      rcases hplace with rfl | rfl | rfl
      · exact hwhole
      · grind [Place.next?]
      · grind [Place.next?]
    simp [run, step, hnone]

theorem run_number {cs : List Char} {parts : Number.Parts} (h : Number.Spells cs parts)
    (rest : List Char) (hends : EndsNumber rest) :
    between.run (cs ++ rest) = .scalar (Number.ofParts parts) :: between.run rest := by
  have htoken : Token.ofNumber cs = .scalar (Number.ofParts parts) := by
    rw [Token.ofNumber, Number.read?_of_spells h]
  cases h with
  | @mk _ tail hwhole _ hfraction hexponent =>
    obtain ⟨place, hplace, hrunFraction⟩ := run_fraction hfraction
      (Number.signChars parts.negative ++ parts.whole).reverse (tail ++ rest)
    obtain ⟨place', hplace', hrunExponent⟩ := run_exponent hplace hexponent
      ((Number.fractionChars parts.fraction).reverse ++
        (Number.signChars parts.negative ++ parts.whole).reverse) rest
    rw [← htoken]
    simp only [List.append_assoc]
    rw [run_sign hwhole, hrunFraction, hrunExponent, run_end hplace' _ _ hends]
    simp

end Scan

end RightsPolicy.Json
