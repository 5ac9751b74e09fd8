import RightsPolicy.Json.Printer
import RightsPolicy.Json.Token

namespace RightsPolicy.Json

namespace Quoted

def escapes : List (Char × Char) :=
  [('"', '"'), ('\\', '\\'), ('/', '/'), ('b', '\x08'), ('f', '\x0c'), ('n', '\n'), ('r', '\r'),
    ('t', '\t')]

inductive Spells : List Char → List Char → Prop
  | nil : Spells [] []
  | plain {c cs s} (hcontrol : 0x20 ≤ c.toNat) (hquote : c ≠ '"') (hbackslash : c ≠ '\\')
      (h : Spells cs s) : Spells (c :: cs) (c :: s)
  | escape {letter c cs s} (hletter : (letter, c) ∈ escapes) (h : Spells cs s) :
      Spells ('\\' :: letter :: cs) (c :: s)
  | unicode {w x y z n cs s} (hn : Text.hexDigitsValue? [w, x, y, z] = some n)
      (hscalar : n < 0xD800 ∨ 0xDFFF < n) (h : Spells cs s) :
      Spells ('\\' :: 'u' :: w :: x :: y :: z :: cs) (Char.ofNat n :: s)
  | pair {w x y z high w' x' y' z' low cs s}
      (hhigh : Text.hexDigitsValue? [w, x, y, z] = some high)
      (hlow : Text.hexDigitsValue? [w', x', y', z'] = some low)
      (hhighRange : 0xD800 ≤ high ∧ high ≤ 0xDBFF) (hlowRange : 0xDC00 ≤ low ∧ low ≤ 0xDFFF)
      (h : Spells cs s) :
      Spells ('\\' :: 'u' :: w :: x :: y :: z :: '\\' :: 'u' :: w' :: x' :: y' :: z' :: cs)
        (Char.ofNat ((high - 0xD800) * 0x400 + (low - 0xDC00) + 0x10000) :: s)

theorem units?_plain {c : Char} (hcontrol : 0x20 ≤ c.toNat) (hbackslash : c ≠ '\\')
    (rest : List Char) : units? (c :: rest) = (units? rest).map (c.toNat :: ·) := by
  rw [units?.eq_def]
  split
  · rename_i h
    cases h
  · rename_i h
    cases h
    exact absurd rfl hbackslash
  · rename_i h
    cases h
    exact absurd rfl hbackslash
  · rename_i h
    cases h
    rw [if_neg]
    simp only [hbackslash, or_false]
    omega

theorem units?_escape {letter c : Char} (h : (letter, c) ∈ escapes) (rest : List Char) :
    units? ('\\' :: letter :: rest) = (units? rest).map (c.toNat :: ·) := by
  simp only [escapes, List.mem_cons, Prod.mk.injEq, List.not_mem_nil, or_false] at h
  rcases h with ⟨rfl, rfl⟩ | ⟨rfl, rfl⟩ | ⟨rfl, rfl⟩ | ⟨rfl, rfl⟩ | ⟨rfl, rfl⟩ | ⟨rfl, rfl⟩ |
    ⟨rfl, rfl⟩ | ⟨rfl, rfl⟩ <;> rfl

theorem units?_unicode {w x y z : Char} {n : Nat} (h : Text.hexDigitsValue? [w, x, y, z] = some n)
    (rest : List Char) :
    units? ('\\' :: 'u' :: w :: x :: y :: z :: rest) = (units? rest).map (n :: ·) := by
  rw [units?, h]

theorem join?_cons {n : Nat} (h : n < 0xD800 ∨ 0xDFFF < n) (units : List Nat) :
    join? (n :: units) = (join? units).map (Char.ofNat n :: ·) := by
  have hhigh : isHighSurrogate n = false := by
    simp only [isHighSurrogate, Bool.and_eq_false_iff, decide_eq_false_iff_not]
    omega
  have hlow : isLowSurrogate n = false := by
    simp only [isLowSurrogate, Bool.and_eq_false_iff, decide_eq_false_iff_not]
    omega
  rw [join?.eq_def]
  simp [hhigh, hlow]

theorem join?_char (c : Char) (units : List Nat) :
    join? (c.toNat :: units) = (join? units).map (c :: ·) := by
  have hvalid : c.toNat < 0xD800 ∨ 0xDFFF < c.toNat := by
    rcases c.valid with h | h
    · exact .inl h
    · exact .inr h.1
  rw [join?_cons hvalid, Char.ofNat_toNat]

theorem join?_pair {high low : Nat} (hhigh : 0xD800 ≤ high ∧ high ≤ 0xDBFF)
    (hlow : 0xDC00 ≤ low ∧ low ≤ 0xDFFF) (units : List Nat) :
    join? (high :: low :: units) = (join? units).map
      (Char.ofNat ((high - 0xD800) * 0x400 + (low - 0xDC00) + 0x10000) :: ·) := by
  rw [join?.eq_def]
  simp [isHighSurrogate, isLowSurrogate, hhigh, hlow]

theorem exists_units {cs s : List Char} (h : Spells cs s) :
    ∃ units, units? cs = some units ∧ join? units = some s := by
  induction h with
  | nil => exact ⟨[], rfl, rfl⟩
  | @plain c cs s hcontrol _ hbackslash _ ih =>
    obtain ⟨units, hunits, hjoin⟩ := ih
    exact ⟨c.toNat :: units, by rw [units?_plain hcontrol hbackslash, hunits, Option.map_some],
      by rw [join?_char, hjoin, Option.map_some]⟩
  | @escape letter c cs s hletter _ ih =>
    obtain ⟨units, hunits, hjoin⟩ := ih
    exact ⟨c.toNat :: units, by rw [units?_escape hletter, hunits, Option.map_some],
      by rw [join?_char, hjoin, Option.map_some]⟩
  | @unicode _ _ _ _ n cs s hn hscalar _ ih =>
    obtain ⟨units, hunits, hjoin⟩ := ih
    exact ⟨n :: units, by rw [units?_unicode hn, hunits, Option.map_some],
      by rw [join?_cons hscalar, hjoin, Option.map_some]⟩
  | @pair _ _ _ _ high _ _ _ _ low cs s hhigh hlow hhighRange hlowRange _ ih =>
    obtain ⟨units, hunits, hjoin⟩ := ih
    refine ⟨high :: low :: units, ?_, ?_⟩
    · rw [units?_unicode hhigh, units?_unicode hlow, hunits, Option.map_some, Option.map_some]
    · rw [join?_pair hhighRange hlowRange, hjoin, Option.map_some]

theorem hexDigitsValue?_control : ∀ n < 0x20,
    Text.hexDigitsValue? (Text.hexDigits n 4) = some n := by
  decide

theorem spells_escape (c : Char) {cs s : List Char} (h : Spells cs s) :
    Spells (escape c ++ cs) (c :: s) := by
  unfold escape
  iterate 7
    split
    · subst c
      exact .escape (by decide) h
  split
  · rename_i hcontrol
    have hunicode := Spells.unicode (hexDigitsValue?_control c.toNat hcontrol) (by omega) h
    rwa [Char.ofNat_toNat] at hunicode
  · rename_i hquote hbackslash _ _ _ _ _ hcontrol
    exact .plain (by omega) hquote hbackslash h

theorem spells_encode (cs : List Char) : Spells (encode cs) cs := by
  induction cs with
  | nil => exact .nil
  | cons c cs ih => exact spells_escape c ih

end Quoted

theorem Token.ofQuoted_of_spells {cs s : List Char} (h : Quoted.Spells cs s) :
    Token.ofQuoted cs = .scalar (.text (String.ofList s)) := by
  obtain ⟨units, hunits, hjoin⟩ := Quoted.exists_units h
  simp only [Token.ofQuoted, hunits, hjoin]

namespace Scan

theorem run_plain (cs raw rest : List Char) (h : ∀ c ∈ cs, c ≠ '"' ∧ c ≠ '\\') :
    (quoted raw false).run (cs ++ rest) = (quoted (cs.reverse ++ raw) false).run rest := by
  induction cs generalizing raw with
  | nil => rfl
  | cons c cs ih =>
    obtain ⟨⟨hquote, hbackslash⟩, hcs⟩ := List.forall_mem_cons.mp h
    have hstep : step (quoted raw false) c = ([], quoted (c :: raw) false) := by
      simp [step, hquote, hbackslash]
    rw [List.cons_append, run, hstep, ih _ hcs]
    simp

theorem hexDigits_plain {digits : List Char} {n : Nat} (h : Text.hexDigitsValue? digits = some n) :
    ∀ c ∈ digits, c ≠ '"' ∧ c ≠ '\\' := by
  unfold Text.hexDigitsValue? at h
  generalize 0 = start at h
  induction digits generalizing start with
  | nil => nofun
  | cons c digits ih =>
    rw [List.foldlM_cons] at h
    obtain ⟨next, hnext, hrest⟩ := Option.bind_eq_some_iff.mp h
    obtain ⟨value, hvalue, -⟩ := Option.map_eq_some_iff.mp hnext
    refine List.forall_mem_cons.mpr ⟨⟨?_, ?_⟩, ih next hrest⟩
    · rintro rfl
      cases hvalue
    · rintro rfl
      cases hvalue

theorem run_unicode {w x y z : Char} {n : Nat} (h : Text.hexDigitsValue? [w, x, y, z] = some n)
    (raw rest : List Char) :
    (quoted raw false).run ('\\' :: 'u' :: w :: x :: y :: z :: rest) =
      (quoted ([z, y, x, w, 'u', '\\'] ++ raw) false).run rest :=
  run_plain [w, x, y, z] ('u' :: '\\' :: raw) rest (hexDigits_plain h)

theorem run_spelled {cs s : List Char} (h : Quoted.Spells cs s) (raw rest : List Char) :
    (quoted raw false).run (cs ++ rest) = (quoted (cs.reverse ++ raw) false).run rest := by
  induction h generalizing raw with
  | nil => rfl
  | @plain c cs s _ hquote hbackslash _ ih =>
    have hrun := run_plain [c] raw (cs ++ rest) (by simp [hquote, hbackslash])
    rw [List.cons_append, List.reverse_cons, List.append_assoc, ← ih]
    exact hrun
  | @escape letter c cs s _ _ ih =>
    have hrun : (quoted raw false).run ('\\' :: letter :: (cs ++ rest)) =
        (quoted (letter :: '\\' :: raw) false).run (cs ++ rest) := rfl
    simp only [List.cons_append, List.reverse_cons, List.append_assoc, List.nil_append]
    rw [hrun, ih]
  | @unicode w x y z n cs s hn _ _ ih =>
    simp only [List.cons_append, List.reverse_cons, List.append_assoc, List.nil_append]
    rw [run_unicode hn, ih]
    rfl
  | @pair w x y z high w' x' y' z' low cs s hhigh hlow _ _ _ ih =>
    simp only [List.cons_append, List.reverse_cons, List.append_assoc, List.nil_append]
    rw [run_unicode hhigh, run_unicode hlow, ih]
    rfl

theorem run_quoted {cs s : List Char} (h : Quoted.Spells cs s) (rest : List Char) :
    between.run ('"' :: cs ++ '"' :: rest) =
      .scalar (.text (String.ofList s)) :: between.run rest := by
  have hstart : between.run ('"' :: (cs ++ '"' :: rest)) =
      (quoted [] false).run (cs ++ '"' :: rest) := rfl
  rw [List.cons_append, hstart, run_spelled h, ← Token.ofQuoted_of_spells h]
  simp [run, step]

end Scan

end RightsPolicy.Json
