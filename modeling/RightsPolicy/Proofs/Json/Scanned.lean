import RightsPolicy.Proofs.Json.Spelling

namespace RightsPolicy

namespace Json

namespace Quoted

inductive Writes : List Char → Nat → Prop
  | plain {c} (hcontrol : 0x20 ≤ c.toNat) (hquote : c ≠ '"') (hbackslash : c ≠ '\\') :
      Writes [c] c.toNat
  | escape {letter c} (hletter : (letter, c) ∈ escapes) : Writes ['\\', letter] c.toNat
  | unicode {w x y z n} (hn : Text.hexDigitsValue? [w, x, y, z] = some n) :
      Writes ['\\', 'u', w, x, y, z] n

inductive WritesAll : List Char → List Nat → Prop
  | nil : WritesAll [] []
  | cons {piece n cs units} (h : Writes piece n) (hrest : WritesAll cs units) :
      WritesAll (piece ++ cs) (n :: units)

inductive Inside : Bool → List Char → Prop
  | nil : Inside false []
  | plain {c cs} (hquote : c ≠ '"') (h : Inside (c = '\\') cs) : Inside false (c :: cs)
  | escaped {c cs} (h : Inside false cs) : Inside true (c :: cs)

theorem mem_escapes_of_unescape? {letter c : Char} (h : unescape? letter = some c) :
    (letter, c) ∈ escapes := by
  unfold unescape? at h
  split at h <;> first
    | cases h; decide
    | cases h

theorem Inside.of_plain {cs rest : List Char} (h : Inside false (cs ++ rest))
    (hcs : ∀ c ∈ cs, c ≠ '"' ∧ c ≠ '\\') : Inside false rest := by
  induction cs with
  | nil => exact h
  | cons c cs ih =>
    obtain ⟨⟨-, hbackslash⟩, hcs⟩ := List.forall_mem_cons.mp hcs
    cases h with
    | plain _ h =>
      rw [decide_eq_false hbackslash] at h
      exact ih h hcs

theorem Inside.of_escape {c : Char} {cs : List Char} (h : Inside false ('\\' :: c :: cs)) :
    Inside false cs := by
  cases h with
  | plain _ h =>
    cases h with
    | escaped h => exact h

theorem writesAll_of_units? {raw : List Char} {units : List Nat} (h : units? raw = some units)
    (hinside : Inside false raw) : WritesAll raw units := by
  fun_induction units? raw generalizing units with
  | case1 =>
    cases h
    exact .nil
  | case2 w x y z rest n hn ih =>
    obtain ⟨units, hunits, rfl⟩ := Option.map_eq_some_iff.mp h
    have hrest : Inside false rest :=
      Inside.of_plain (Inside.of_escape hinside) (Scan.hexDigits_plain hn)
    exact .cons (.unicode hn) (ih hunits hrest)
  | case3 => cases h
  | case4 c rest _ e he ih =>
    obtain ⟨units, hunits, rfl⟩ := Option.map_eq_some_iff.mp h
    exact .cons (.escape (mem_escapes_of_unescape? he)) (ih hunits (Inside.of_escape hinside))
  | case5 => cases h
  | case6 => cases h
  | case7 c rest _ _ hplain ih =>
    obtain ⟨units, hunits, rfl⟩ := Option.map_eq_some_iff.mp h
    simp only [not_or] at hplain
    cases hinside with
    | plain hquote hinside =>
      rw [decide_eq_false hplain.2] at hinside
      exact .cons (.plain (Nat.le_of_not_lt hplain.1) hquote hplain.2) (ih hunits hinside)

theorem Writes.unicode_of_surrogate {piece : List Char} {n : Nat} (h : Writes piece n)
    (hlow : 0xD800 ≤ n) (hhigh : n ≤ 0xDFFF) :
    ∃ w x y z, piece = ['\\', 'u', w, x, y, z] ∧ Text.hexDigitsValue? [w, x, y, z] = some n := by
  have hchar (c : Char) (hlow : 0xD800 ≤ c.toNat) (hhigh : c.toNat ≤ 0xDFFF) : False := by
    have hvalid : c.toNat < 0xD800 ∨ 0xDFFF < c.toNat := by
      rcases c.valid with h | h
      · exact .inl h
      · exact .inr h.1
    omega
  cases h with
  | plain => exact (hchar _ hlow hhigh).elim
  | escape => exact (hchar _ hlow hhigh).elim
  | unicode hn => exact ⟨_, _, _, _, rfl, hn⟩

theorem Spells.unit {piece cs s : List Char} {n : Nat} (h : Writes piece n)
    (hscalar : n < 0xD800 ∨ 0xDFFF < n) (hrest : Spells cs s) :
    Spells (piece ++ cs) (Char.ofNat n :: s) := by
  cases h with
  | plain hcontrol hquote hbackslash =>
    rw [Char.ofNat_toNat]
    exact .plain hcontrol hquote hbackslash hrest
  | escape hletter =>
    rw [Char.ofNat_toNat]
    exact .escape hletter hrest
  | unicode hn => exact .unicode hn hscalar hrest

theorem spells_of_join? {raw s : List Char} {units : List Nat} (h : join? units = some s)
    (hwrites : WritesAll raw units) : Spells raw s := by
  fun_induction join? units generalizing raw s with
  | case1 =>
    cases h
    cases hwrites
    exact .nil
  | case2 high hhigh low rest hlow ih =>
    obtain ⟨s, hs, rfl⟩ := Option.map_eq_some_iff.mp h
    simp only [isHighSurrogate, isLowSurrogate, Bool.and_eq_true, decide_eq_true_eq] at hhigh hlow
    cases hwrites with
    | cons hfirst hwrites =>
      cases hwrites with
      | cons hsecond hwrites =>
        obtain ⟨_, _, _, _, rfl, hhighDigits⟩ := hfirst.unicode_of_surrogate hhigh.1 (by omega)
        obtain ⟨_, _, _, _, rfl, hlowDigits⟩ := hsecond.unicode_of_surrogate (by omega) hlow.2
        exact .pair hhighDigits hlowDigits hhigh hlow (ih hs hwrites)
  | case3 => cases h
  | case4 => cases h
  | case5 => cases h
  | case6 n rest hhigh hlow ih =>
    obtain ⟨s, hs, rfl⟩ := Option.map_eq_some_iff.mp h
    simp only [isHighSurrogate, isLowSurrogate, Bool.and_eq_true, decide_eq_true_eq] at hhigh hlow
    cases hwrites with
    | cons hfirst hwrites => exact .unit hfirst (by omega) (ih hs hwrites)

end Quoted

namespace Number

theorem spells_of_exponent? {cs : List Char} {exponent : Option Int}
    (h : exponent? cs = some exponent) : SpellsExponent cs exponent := by
  have hmarked {mark : Char} (hmark : mark = 'e' ∨ mark = 'E') {rest : List Char}
      (h : exponent? ('e' :: rest) = some exponent) : SpellsExponent (mark :: rest) exponent := by
    simp only [exponent?] at h
    split at h
    · split at h
      · rename_i hread
        obtain ⟨hdigits, rfl⟩ := Text.isDigits_of_digits? hread
        cases h
        rw [Int.one_mul, List.append_nil]
        exact .plus hmark hdigits
      · cases h
    · split at h
      · rename_i hread
        obtain ⟨hdigits, rfl⟩ := Text.isDigits_of_digits? hread
        cases h
        rw [Int.neg_one_mul, List.append_nil]
        exact .minus hmark hdigits
      · cases h
    · split at h
      · rename_i hread
        obtain ⟨hdigits, rfl⟩ := Text.isDigits_of_digits? hread
        cases h
        rw [Int.one_mul, List.append_nil]
        exact .unsigned hmark hdigits
      · cases h
  cases cs with
  | nil =>
    cases h
    exact .none
  | cons c rest =>
    by_cases hlower : c = 'e'
    · subst hlower
      exact hmarked (.inl rfl) h
    · by_cases hupper : c = 'E'
      · subst hupper
        exact hmarked (.inr rfl) h
      · simp [exponent?, hlower, hupper] at h

theorem spells_of_fraction? {cs rest : List Char} {fraction : Option (List Char)}
    (h : fraction? cs = some (fraction, rest)) :
    (∀ digits ∈ fraction, Text.IsDigits digits) ∧ cs = fractionChars fraction ++ rest := by
  unfold fraction? at h
  split at h
  · obtain ⟨⟨digits, _⟩, hread, heq⟩ := Option.map_eq_some_iff.mp h
    cases heq
    obtain ⟨hdigits, rfl⟩ := Text.isDigits_of_digits? hread
    refine ⟨?_, rfl⟩
    intro _ h
    cases h
    exact hdigits
  · cases h
    refine ⟨?_, rfl⟩
    intro _ h
    cases h

theorem isDigits_of_whole? {cs digits rest : List Char} (h : whole? cs = some (digits, rest)) :
    Text.IsDigits digits ∧ (digits.head? = some '0' → digits = ['0']) ∧ cs = digits ++ rest := by
  unfold whole? at h
  split at h
  · cases h
  · rename_i hplain
    obtain ⟨hdigits, hcs⟩ := Text.isDigits_of_digits? h
    refine ⟨hdigits, ?_, hcs⟩
    intro hzero
    obtain ⟨tail, rfl⟩ := List.head?_eq_some_iff.mp hzero
    cases tail with
    | nil => rfl
    | cons c tail => exact absurd h (hplain c tail rest)

theorem spells_of_parts? {cs : List Char} {parts : Parts} (h : parts? cs = some parts) :
    Spells cs parts := by
  have hsigned {negative : Bool} {cs : List Char}
      (h : ∃ digits tail, whole? cs = some (digits, tail) ∧ ∃ fraction tail',
        fraction? tail = some (fraction, tail') ∧ ∃ exponent, exponent? tail' = some exponent ∧
          ⟨negative, digits, fraction, exponent⟩ = parts) :
      Spells (signChars negative ++ cs) parts := by
    obtain ⟨whole, tail, hwhole, fraction, tail', hfraction, exponent, hexponent, rfl⟩ := h
    obtain ⟨hdigits, hzero, rfl⟩ := isDigits_of_whole? hwhole
    obtain ⟨hfractionDigits, rfl⟩ := spells_of_fraction? hfraction
    exact @Spells.mk ⟨negative, whole, fraction, exponent⟩ _ hdigits hzero hfractionDigits
      (spells_of_exponent? hexponent)
  unfold parts? at h
  split at h
  rename_i hsign
  split at hsign
  · cases hsign
    exact @hsigned true _ (by simpa [Option.bind_eq_some_iff] using h)
  · cases hsign
    exact @hsigned false _ (by simpa [Option.bind_eq_some_iff] using h)

theorem eq_integerChars {cs : List Char} {parts : Parts} {n : Int} (h : Spells cs parts)
    (hn : integer? parts = some n) : cs = integerChars n ∧ IsWord n := by
  obtain ⟨hwhole, hzero, -, hexponent⟩ := h
  obtain ⟨negative, whole, fraction, exponent⟩ := parts
  have hdigits := Text.toDigits_digitsValue hwhole hzero
  simp only [integer?, Option.ite_none_left_eq_some, Bool.or_eq_true, not_or,
    Bool.not_eq_true, Option.isSome_eq_false_iff, Option.isNone_iff_eq_none] at hn
  obtain ⟨⟨rfl, rfl⟩, hn⟩ := hn
  cases hexponent
  simp only [IsWord, integerChars, fractionChars, List.append_nil, Nat.toList_repr]
  split at hn
  · rename_i hnegative
    subst hnegative
    split at hn
    · rename_i hrange
      cases hn
      simp only [UInt64.size] at hrange
      refine ⟨?_, by omega, by omega⟩
      rw [if_pos (by omega), Int.natAbs_neg, Int.natAbs_natCast, hdigits]
      rfl
    · cases hn
  · rename_i hpositive
    split at hn
    · rename_i hrange
      cases hn
      simp only [fitsWord, UInt64.size, decide_eq_true_eq] at hrange
      refine ⟨?_, by omega, by omega⟩
      rw [if_neg (by omega), Int.natAbs_natCast, hdigits, signChars, if_neg hpositive,
        List.nil_append]
    · cases hn

theorem spells_of_read? {cs : List Char} {value : Json} (h : read? cs = some value)
    (hreadable : value.isReadable = true) (depth : Nat) : Json.Spells depth cs value := by
  obtain ⟨parts, hparts, rfl⟩ := Option.map_eq_some_iff.mp h
  have hspells := spells_of_parts? hparts
  cases hinteger : integer? parts with
  | some n =>
    obtain ⟨rfl, hword⟩ := eq_integerChars hspells hinteger
    have hvalue : ofParts parts = .integer n := by simp only [ofParts, hinteger]
    rw [hvalue]
    exact .integer hword
  | none =>
    cases hdecimal : decimal? parts with
    | some x =>
      have hvalue : ofParts parts = .decimal ⟨parts.negative, x⟩ := by
        simp only [ofParts, hinteger, hdecimal]
      rw [hvalue]
      exact .decimal hspells hvalue
    | none => simp [ofParts, hinteger, hdecimal, isReadable] at hreadable

end Number

def Token.IsWritten (cs : List Char) : Token → Prop
  | .openArray => cs = ['[']
  | .closeArray => cs = [']']
  | .openObject => cs = ['{']
  | .closeObject => cs = ['}']
  | .comma => cs = [',']
  | .colon => cs = [':']
  | .scalar value => value.isReadable = true → ∀ depth, Spells depth cs value
  | .surrogate => True
  | .bad => True

inductive Lexed : List Char → List Token → Prop
  | done {blanks} (hblanks : Blanks blanks) : Lexed blanks []
  | token {blanks cs token rest tokens} (hblanks : Blanks blanks) (h : token.IsWritten cs)
      (hrest : Lexed rest tokens) : Lexed (blanks ++ (cs ++ rest)) (token :: tokens)

theorem Token.isWritten_ofQuoted {raw : List Char} (h : Quoted.Inside false raw) :
    (Token.ofQuoted raw).IsWritten ('"' :: raw ++ ['"']) := by
  unfold Token.ofQuoted
  split
  · rename_i units hunits
    split
    · rename_i s hjoin
      intro _ depth
      exact .text (Quoted.spells_of_join? hjoin (Quoted.writesAll_of_units? hunits h))
    · trivial
  · trivial

theorem Token.isWritten_ofNumber (cs : List Char) : (Token.ofNumber cs).IsWritten cs := by
  unfold Token.ofNumber
  split
  · rename_i hread
    exact Number.spells_of_read? hread
  · trivial

namespace Scan

theorem run_stopped (cs : List Char) : stopped.run cs = [] := by
  induction cs with
  | nil => rfl
  | cons c cs ih => exact ih

theorem exists_quoted (cs raw : List Char) (escaped : Bool) :
    (quoted raw escaped).run cs = [.bad] ∨ ∃ inside rest, Quoted.Inside escaped inside ∧
      cs = inside ++ '"' :: rest ∧
      (quoted raw escaped).run cs = .ofQuoted (raw.reverse ++ inside) :: between.run rest := by
  induction cs generalizing raw escaped with
  | nil => exact .inl rfl
  | cons c cs ih =>
    cases escaped with
    | true =>
      rcases ih (c :: raw) false with h | ⟨inside, rest, hinside, rfl, h⟩
      · exact .inl h
      · refine .inr ⟨c :: inside, rest, .escaped hinside, rfl, ?_⟩
        rw [List.reverse_cons, List.append_assoc] at h
        exact h
    | false =>
      by_cases hquote : c = '"'
      · subst hquote
        refine .inr ⟨[], cs, .nil, rfl, ?_⟩
        rw [List.append_nil]
        rfl
      · have hstep : (quoted raw false).run (c :: cs) = (quoted (c :: raw) (c = '\\')).run cs := by
          simp [run, step, hquote]
        rcases ih (c :: raw) (c = '\\') with h | ⟨inside, rest, hinside, rfl, h⟩
        · exact .inl (hstep.trans h)
        · refine .inr ⟨c :: inside, rest, .plain hquote hinside, rfl, ?_⟩
          rw [List.reverse_cons, List.append_assoc] at h
          exact hstep.trans h

theorem exists_word {letters : List Char} (hletters : letters ≠ []) (value : Json)
    (cs : List Char) : (word value letters).run cs = [.bad] ∨
      ∃ rest, cs = letters ++ rest ∧ (word value letters).run cs =
        .scalar value :: between.run rest := by
  induction letters generalizing cs with
  | nil => exact absurd rfl hletters
  | cons letter letters ih =>
    cases cs with
    | nil => exact .inl rfl
    | cons c cs =>
      by_cases hc : c = letter
      · subst hc
        cases letters with
        | nil => exact .inr ⟨cs, rfl, by simp [run, step]⟩
        | cons second letters =>
          have hstep : (word value (c :: second :: letters)).run (c :: cs) =
              (word value (second :: letters)).run cs := by
            simp [run, step]
          rcases ih (List.cons_ne_nil _ _) cs with h | ⟨rest, rfl, h⟩
          · exact .inl (hstep.trans h)
          · exact .inr ⟨rest, rfl, hstep.trans h⟩
      · left
        cases letters with
        | nil => simp [run, step, hc, run_stopped]
        | cons second letters => simp [run, step, hc, run_stopped]

theorem exists_number (cs acc : List Char) (place : Number.Place) :
    ∃ more rest, cs = more ++ rest ∧
      (number acc place).run cs = .ofNumber (acc.reverse ++ more) :: between.run rest := by
  induction cs generalizing acc place with
  | nil => exact ⟨[], [], rfl, by rw [List.append_nil]; rfl⟩
  | cons c cs ih =>
    cases hnext : place.next? c with
    | some next =>
      obtain ⟨more, rest, rfl, h⟩ := ih (c :: acc) next
      refine ⟨c :: more, rest, rfl, ?_⟩
      rw [List.reverse_cons, List.append_assoc] at h
      simpa [run, step, hnext] using h
    | none => exact ⟨[], c :: cs, rfl, by simp [run, step, hnext]⟩

inductive Starts (c : Char) : List Token × Scan → Prop
  | blank (h : isBlank c = true) : Starts c ([], .between)
  | quote (h : c = '"') : Starts c ([], .quoted [] false)
  | token {token : Token} (h : token.IsWritten [c]) : Starts c ([token], .between)
  | number {place} : Starts c ([], .number [c] place)
  | word {value letters} (hletters : letters ≠ [])
      (h : ∀ depth, Spells depth (c :: letters) value) : Starts c ([], .word value letters)
  | bad : Starts c ([.bad], .stopped)

theorem starts (c : Char) : Starts c (start c) := by
  by_cases hsign : c ∈ ['[', ']', '{', '}', ',', ':']
  · simp only [List.mem_cons, List.not_mem_nil, or_false] at hsign
    rcases hsign with rfl | rfl | rfl | rfl | rfl | rfl <;> exact .token rfl
  · by_cases hletter : c ∈ ['n', 't', 'f']
    · simp only [List.mem_cons, List.not_mem_nil, or_false] at hletter
      rcases hletter with rfl | rfl | rfl
      · exact .word (List.cons_ne_nil _ _) fun _ => .null
      · exact .word (List.cons_ne_nil _ _) fun _ => .bool true
      · exact .word (List.cons_ne_nil _ _) fun _ => .bool false
    · simp only [List.mem_cons, List.not_mem_nil, or_false, not_or] at hsign hletter
      simp only [start, hsign, hletter, if_false]
      split
      · exact .blank ‹_›
      · split
        · exact .quote ‹_›
        · split
          · exact .number
          · split
            · exact .number
            · exact .bad

end Scan

theorem Lexed.blank {c : Char} {cs : List Char} {tokens : List Token} (h : Scan.isBlank c = true)
    (hlexed : Lexed cs tokens) : Lexed (c :: cs) tokens := by
  cases hlexed with
  | done hblanks => exact .done (List.forall_mem_cons.mpr ⟨h, hblanks⟩)
  | @token blanks cs _ _ _ hblanks htoken hrest =>
    exact @Lexed.token (c :: blanks) cs _ _ _ (List.forall_mem_cons.mpr ⟨h, hblanks⟩) htoken hrest

theorem Lexed.next {cs rest : List Char} {token : Token} {tokens : List Token}
    (h : token.IsWritten cs) (hrest : Lexed rest tokens) : Lexed (cs ++ rest) (token :: tokens) :=
  @Lexed.token [] _ _ _ _ nofun h hrest

theorem lexed_bad (cs : List Char) : Lexed cs [.bad] := by
  have hlexed := @Lexed.next cs [] .bad [] trivial (.done nofun)
  rwa [List.append_nil] at hlexed

theorem lexed_run (cs : List Char) : Lexed cs (Scan.between.run cs) := by
  induction hlength : cs.length using Nat.strongRecOn generalizing cs with
  | ind n ih =>
    cases cs with
    | nil => exact .done nofun
    | cons c cs =>
      have hshorter {rest : List Char} (h : rest.length ≤ cs.length) :
          Lexed rest (Scan.between.run rest) := by
        refine ih rest.length ?_ rest rfl
        rw [List.length_cons] at hlength
        omega
      have hrun : Scan.between.run (c :: cs) = (Scan.start c).1 ++ (Scan.start c).2.run cs := rfl
      have hstarts := Scan.starts c
      rw [hrun]
      generalize Scan.start c = started at hstarts
      cases hstarts with
      | blank h => exact .blank h (hshorter (Nat.le_refl _))
      | quote h =>
        subst h
        rcases Scan.exists_quoted cs [] false with hbad | ⟨inside, rest, hinside, rfl, htoken⟩
        · rw [List.nil_append, hbad]
          exact lexed_bad _
        · rw [List.nil_append, htoken]
          have hrest : rest.length ≤ (inside ++ '"' :: rest).length := by
            rw [List.length_append, List.length_cons]
            omega
          have hnext := Lexed.next (Token.isWritten_ofQuoted hinside) (hshorter hrest)
          simpa using hnext
      | token h => exact .next h (hshorter (Nat.le_refl _))
      | @number place =>
        obtain ⟨more, rest, rfl, htoken⟩ := Scan.exists_number cs [c] place
        rw [List.nil_append, htoken]
        exact .next (Token.isWritten_ofNumber (c :: more)) (hshorter (by simp))
      | @word value letters hletters h =>
        rcases Scan.exists_word hletters value cs with hbad | ⟨rest, rfl, htoken⟩
        · rw [List.nil_append, hbad]
          exact lexed_bad _
        · rw [List.nil_append, htoken]
          exact @Lexed.next (c :: letters) rest (.scalar value) _ (fun _ => h) (hshorter (by simp))
      | bad =>
        rw [Scan.run_stopped]
        exact lexed_bad _

end Json

end RightsPolicy
