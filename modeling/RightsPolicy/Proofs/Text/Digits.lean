import Mathlib.Data.List.Induction
import Mathlib.Tactic.Ring
import RightsPolicy.Text.Digits

namespace RightsPolicy.Text

theorem digitsValue_toDigits (n : Nat) : digitsValue (Nat.toDigits 10 n) = n := by
  have h := Nat.ofDigitChars_ten_toDigits (n := n)
  rwa [Nat.ofDigitChars_eq_foldl] at h

theorem digitsValue_repr (n : Nat) : digitsValue (Nat.repr n).toList = n := by
  rw [Nat.toList_repr, digitsValue_toDigits]

theorem isDigit_toDigits (n : Nat) : ∀ c ∈ Nat.toDigits 10 n, c.isDigit = true := by
  intro c hc
  exact Nat.isDigit_of_mem_toDigits (by decide) (by decide) hc

theorem head?_toDigits_ne (n : Nat) (h : 0 < n) : (Nat.toDigits 10 n).head? ≠ some '0' := by
  induction n using Nat.strongRecOn with
  | ind n ih =>
    by_cases hlt : n < 10
    · rw [Nat.toDigits_of_lt_base hlt]
      have hdigit : ∀ n < 10, 0 < n → [n.digitChar].head? ≠ some '0' := by decide
      exact hdigit n hlt h
    · have hhead := ih (n / 10) (by omega) (by omega)
      obtain ⟨c, rest, hcons⟩ := List.exists_cons_of_ne_nil (@Nat.toDigits_ne_nil (n / 10) 10)
      rw [Nat.toDigits_of_base_le (by decide) (Nat.le_of_not_lt hlt), hcons]
      rw [hcons] at hhead
      exact hhead

theorem digitValue_lt {c : Char} (h : c.isDigit = true) : digitValue c < 10 := by
  have hrange : 48 ≤ c.toNat ∧ c.toNat ≤ 57 := Char.isDigit_iff_toNat.mp h
  have hzero : '0'.toNat = 48 := rfl
  rw [digitValue, hzero]
  omega

theorem digitsValue_lt {digits : List Char} (h : ∀ c ∈ digits, c.isDigit = true) :
    digitsValue digits < 10 ^ digits.length := by
  have hfold (start : Nat) :
      digits.foldl (fun n c => 10 * n + digitValue c) start < (start + 1) * 10 ^ digits.length := by
    induction digits generalizing start with
    | nil => simp
    | cons c digits ih =>
      obtain ⟨hc, hdigits⟩ := List.forall_mem_cons.mp h
      have hvalue := digitValue_lt hc
      calc (c :: digits).foldl (fun n c => 10 * n + digitValue c) start
          < (10 * start + digitValue c + 1) * 10 ^ digits.length := ih hdigits _
        _ ≤ (10 * (start + 1)) * 10 ^ digits.length := by
          apply Nat.mul_le_mul_right
          omega
        _ = (start + 1) * 10 ^ (c :: digits).length := by
          rw [List.length_cons, Nat.pow_succ]
          ring
  have hstart := hfold 0
  rwa [Nat.zero_add, Nat.one_mul] at hstart

theorem digitsValue_append (front back : List Char) :
    digitsValue (front ++ back) =
      digitsValue front * 10 ^ back.length + digitsValue back := by
  have hfold (start : Nat) : back.foldl (fun n c => 10 * n + digitValue c) start =
      start * 10 ^ back.length + back.foldl (fun n c => 10 * n + digitValue c) 0 := by
    induction back generalizing start with
    | nil => simp
    | cons c back ih =>
      rw [List.foldl_cons, List.foldl_cons, ih, ih (10 * 0 + digitValue c), List.length_cons]
      ring
  rw [digitsValue, List.foldl_append]
  exact hfold _

theorem digitChar_digitValue {c : Char} (h : c.isDigit = true) : (digitValue c).digitChar = c := by
  have hrange : 48 ≤ c.toNat ∧ c.toNat ≤ 57 := Char.isDigit_iff_toNat.mp h
  have hchar : ∀ n < 10, n.digitChar = Char.ofNat (48 + n) := by decide
  have hvalue : 48 + digitValue c = c.toNat := Nat.add_sub_cancel' hrange.1
  rw [hchar _ (by omega), hvalue, Char.ofNat_toNat]

def IsDigits (cs : List Char) : Prop :=
  cs ≠ [] ∧ ∀ c ∈ cs, c.isDigit = true

theorem isDigits_toDigits (n : Nat) : IsDigits (Nat.toDigits 10 n) :=
  ⟨Nat.toDigits_ne_nil, isDigit_toDigits n⟩

theorem IsDigits.ne {c : Char} {digits : List Char} (h : IsDigits digits) (hc : c ∈ digits)
    {d : Char} (hd : d.isDigit = false) : c ≠ d := by
  rintro rfl
  rw [h.2 c hc] at hd
  cases hd

theorem toDigits_digitsValue {digits : List Char} (h : IsDigits digits)
    (hzero : digits.head? = some '0' → digits = ['0']) :
    Nat.toDigits 10 (digitsValue digits) = digits := by
  induction digits using List.reverseRecOn with
  | nil => exact absurd rfl h.1
  | append_singleton digits c ih =>
    obtain ⟨hdigits, hc⟩ := List.forall_mem_append.mp h.2
    have hdigit := hc c List.mem_cons_self
    have hlt := digitValue_lt hdigit
    have hchar := digitChar_digitValue hdigit
    have hsum : digitsValue (digits ++ [c]) = 10 * digitsValue digits + digitValue c := by
      rw [digitsValue_append, Nat.mul_comm]
      simp [digitsValue]
    rw [hsum]
    by_cases hempty : digits = []
    · subst hempty
      have hvalue : 10 * digitsValue [] + digitValue c = digitValue c := Nat.zero_add _
      rw [hvalue, Nat.toDigits_of_lt_base hlt, hchar, List.nil_append]
    · have hstart : digits.head? ≠ some '0' := by
        intro hhead
        have hone := hzero (by rw [List.head?_append, hhead, Option.some_or])
        have hlength := congrArg List.length hone
        simp only [List.length_append, List.length_cons, List.length_nil] at hlength
        exact hempty (List.length_eq_zero_iff.mp (by omega))
      have hfront := ih ⟨hempty, hdigits⟩ fun hhead => absurd hhead hstart
      have hpos : 0 < digitsValue digits := by
        apply Nat.pos_of_ne_zero
        intro hnone
        rw [hnone] at hfront
        exact hstart (by rw [← hfront]; rfl)
      have hquotient : (10 * digitsValue digits + digitValue c) / 10 = digitsValue digits := by
        omega
      have hremainder : (10 * digitsValue digits + digitValue c) % 10 = digitValue c := by omega
      rw [Nat.toDigits_of_base_le (by decide) (by omega), hquotient, hremainder, hfront, hchar]

def EndsDigits (rest : List Char) : Prop :=
  ∀ c ∈ rest.head?, c.isDigit = false

theorem endsDigits_cons {c : Char} (h : c.isDigit = false) (rest : List Char) :
    EndsDigits (c :: rest) := by
  intro d hd
  cases hd
  exact h

section Run

variable {digits rest : List Char} (hdigits : ∀ c ∈ digits, c.isDigit = true)
  (hends : EndsDigits rest)

include hdigits hends

theorem takeWhile_digits : (digits ++ rest).takeWhile Char.isDigit = digits := by
  rw [List.takeWhile_append_of_pos hdigits]
  cases rest with
  | nil => simp
  | cons c rest => simp [hends c rfl]

theorem dropWhile_digits : (digits ++ rest).dropWhile Char.isDigit = rest := by
  rw [List.dropWhile_append_of_pos hdigits]
  cases rest with
  | nil => rfl
  | cons c rest => simp [hends c rfl]

end Run

theorem digits?_append {digits rest : List Char} (h : IsDigits digits) (hends : EndsDigits rest) :
    digits? (digits ++ rest) = some (digits, rest) := by
  rw [digits?, takeWhile_digits h.2 hends, dropWhile_digits h.2 hends]
  simp [h.1]

theorem isDigits_of_digits? {cs digits rest : List Char} (h : digits? cs = some (digits, rest)) :
    IsDigits digits ∧ cs = digits ++ rest := by
  simp only [digits?, Option.ite_none_left_eq_some, Option.some.injEq, Prod.mk.injEq,
    List.isEmpty_iff] at h
  obtain ⟨hne, rfl, rfl⟩ := h
  exact ⟨⟨hne, fun c hc => List.all_eq_true.mp List.all_takeWhile c hc⟩,
    List.takeWhile_append_dropWhile.symm⟩

end RightsPolicy.Text
