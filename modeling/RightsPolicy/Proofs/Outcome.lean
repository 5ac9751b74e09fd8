namespace RightsPolicy

variable {α β γ ε : Type}

theorem bind_eq_ok_iff {x : Except ε α} {f : α → Except ε β} {b : β} :
    x >>= f = .ok b ↔ ∃ a, x = .ok a ∧ f a = .ok b := by
  cases x with
  | error cause => simp [bind, Except.bind]
  | ok a => simp [bind, Except.bind]

theorem map_eq_ok_iff {x : Except ε α} {f : α → β} {b : β} :
    x.map f = .ok b ↔ ∃ a, x = .ok a ∧ f a = b := by
  cases x with
  | error cause => simp [Except.map]
  | ok a => simp [Except.map]

@[simp]
theorem mapError_ok (f : ε → γ) (a : α) : (Except.ok a : Except ε α).mapError f = .ok a :=
  rfl

theorem mapM_map_ok {f : β → Except ε γ} {g : α → β} {h : α → γ}
    (hf : ∀ a, f (g a) = .ok (h a)) (items : List α) :
    (items.map g).mapM f = .ok (items.map h) := by
  induction items with
  | nil => rfl
  | cons a items ih =>
    rw [List.map_cons, List.mapM_cons, hf, ih]
    rfl

theorem map_of_mapM_eq_ok {f : α → Except ε β} {g : β → α}
    (hf : ∀ a b, f a = .ok b → g b = a) {items : List α} {results : List β}
    (h : items.mapM f = .ok results) : results.map g = items := by
  induction items generalizing results with
  | nil =>
    cases h
    rfl
  | cons a items ih =>
    rw [List.mapM_cons] at h
    obtain ⟨b, hb, h⟩ := bind_eq_ok_iff.mp h
    obtain ⟨rest, hrest, h⟩ := bind_eq_ok_iff.mp h
    cases h
    rw [List.map_cons, hf a b hb, ih hrest]

def Concur (x y : Except ε α) : Prop :=
  ∀ a, x = .ok a ↔ y = .ok a

namespace Concur

variable {x y z : Except ε α}

theorem refl (x : Except ε α) : Concur x x :=
  fun _ => Iff.rfl

theorem trans (hxy : Concur x y) (hyz : Concur y z) : Concur x z :=
  fun a => (hxy a).trans (hyz a)

theorem of_failing (hx : ∀ a, x ≠ .ok a) (hy : ∀ a, y ≠ .ok a) : Concur x y :=
  fun a => iff_of_false (hx a) (hy a)

theorem toOption_eq (hxy : Concur x y) : x.toOption = y.toOption := by
  cases x with
  | ok a => rw [(hxy a).mp rfl]
  | error cause =>
    cases y with
    | ok a => cases (hxy a).mpr rfl
    | error other => rfl

theorem bind {f g : α → Except ε β} (hxy : Concur x y) (hfg : ∀ a, Concur (f a) (g a)) :
    Concur (x >>= f) (y >>= g) := by
  intro b
  simp only [bind_eq_ok_iff, hxy _, hfg _ _]

theorem map (hxy : Concur x y) (f : α → β) : Concur (x.map f) (y.map f) := by
  intro b
  simp only [map_eq_ok_iff, hxy _]

end Concur

theorem of_foldlM {σ : Type} {motive : σ → Prop} {step : σ → α → Except ε σ}
    (hstep : ∀ s a t, motive s → step s a = .ok t → motive t) {items : List α} {s t : σ}
    (hs : motive s) (h : items.foldlM step s = .ok t) : motive t := by
  induction items generalizing s with
  | nil =>
    cases h
    exact hs
  | cons a items ih =>
    rw [List.foldlM_cons] at h
    obtain ⟨middle, hmiddle, h⟩ := bind_eq_ok_iff.mp h
    exact ih (hstep s a middle hs hmiddle) h

section Loop

variable {σ ε' : Type} {cause : ε → ε'} {read : α → Except ε β} {step : σ → α → Except ε' σ}
  {take : σ → β → σ} (room : σ → Nat → Prop)

variable (hroom : ∀ s b n, room s (n + 1) → room (take s b) n)

include hroom

theorem foldlM_eq_map_mapM
    (hstep : ∀ s a n, room s (n + 1) → step s a = ((read a).mapError cause).map (take s))
    {items : List α} {s : σ} {n : Nat} (h : room s (items.length + n)) :
    items.foldlM step s =
      ((items.mapM read).mapError cause).map fun results => results.foldl take s := by
  induction items generalizing s with
  | nil => rfl
  | cons a items ih =>
    rw [List.length_cons, Nat.add_right_comm] at h
    rw [List.foldlM_cons, List.mapM_cons, hstep s a _ h]
    cases read a with
    | error failure => rfl
    | ok b =>
      simp only [mapError_ok, Except.map, bind, Except.bind, ih (hroom s b _ h)]
      cases items.mapM read <;> rfl

theorem room_of_mapM {items : List α} {results : List β} (hread : items.mapM read = .ok results)
    {s : σ} {n : Nat} (h : room s (items.length + n)) : room (results.foldl take s) n := by
  induction items generalizing s results with
  | nil =>
    cases hread
    rwa [List.length_nil, Nat.zero_add] at h
  | cons a items ih =>
    rw [List.length_cons, Nat.add_right_comm] at h
    rw [List.mapM_cons] at hread
    obtain ⟨b, -, hread⟩ := bind_eq_ok_iff.mp hread
    obtain ⟨rest, hrest, hread⟩ := bind_eq_ok_iff.mp hread
    cases hread
    exact ih hrest (hroom s b _ h)

end Loop

end RightsPolicy
