namespace RightsPolicy

namespace TextSet

def insertInto (s : String) : List String → List String
  | [] => [s]
  | t :: rest =>
    if s < t then
      s :: t :: rest
    else if s = t then
      t :: rest
    else
      t :: insertInto s rest

theorem mem_insertInto {s x : String} {items : List String} :
    x ∈ insertInto s items ↔ x = s ∨ x ∈ items := by
  induction items with
  | nil => simp [insertInto]
  | cons t rest ih =>
    unfold insertInto
    split
    · simp
    · split
      · rename_i h
        simp [h]
      · simp only [List.mem_cons, ih]
        constructor
        · rintro (h | h | h) <;> simp [h]
        · rintro (h | h | h) <;> simp [h]

theorem lt_of_not_lt_of_ne {s t : String} (h : ¬ s < t) (hne : s ≠ t) : t < s :=
  String.not_le.mp fun hle => hne (String.le_antisymm hle (String.not_lt.mp h))

theorem pairwise_insertInto {s : String} {items : List String}
    (h : items.Pairwise (· < ·)) : (insertInto s items).Pairwise (· < ·) := by
  induction items with
  | nil => simp [insertInto]
  | cons t rest ih =>
    obtain ⟨hhead, htail⟩ := List.pairwise_cons.mp h
    unfold insertInto
    split
    · rename_i hlt
      refine List.pairwise_cons.mpr ⟨?_, h⟩
      intro x hx
      rcases List.mem_cons.mp hx with rfl | hx
      · exact hlt
      · exact String.lt_trans hlt (hhead x hx)
    · split
      · exact h
      · rename_i hlt hne
        refine List.pairwise_cons.mpr ⟨?_, ih htail⟩
        intro x hx
        rcases mem_insertInto.mp hx with rfl | hx
        · exact lt_of_not_lt_of_ne hlt hne
        · exact hhead x hx

end TextSet

structure TextSet where
  toList : List String
  ascending : toList.Pairwise (· < ·)
  deriving DecidableEq

namespace TextSet

def empty : TextSet :=
  ⟨[], List.Pairwise.nil⟩

def insert (set : TextSet) (s : String) : TextSet :=
  ⟨insertInto s set.toList, pairwise_insertInto set.ascending⟩

def ofList (items : List String) : TextSet :=
  items.foldl insert empty

theorem mem_insert {set : TextSet} {s x : String} :
    x ∈ (set.insert s).toList ↔ x = s ∨ x ∈ set.toList :=
  mem_insertInto

theorem ext {a b : TextSet} (h : a.toList = b.toList) : a = b := by
  cases a
  cases b
  cases h
  rfl

theorem insertInto_of_forall_lt {s : String} {items : List String} (h : ∀ t ∈ items, t < s) :
    insertInto s items = items ++ [s] := by
  induction items with
  | nil => rfl
  | cons t rest ih =>
    obtain ⟨ht, hrest⟩ := List.forall_mem_cons.mp h
    have hlt : ¬ s < t := String.lt_asymm ht
    have hne : s ≠ t := by
      rintro rfl
      exact hlt ht
    rw [insertInto, if_neg hlt, if_neg hne, ih hrest, List.cons_append]

theorem toList_foldl_insert {set : TextSet} {items : List String}
    (h : (set.toList ++ items).Pairwise (· < ·)) :
    (items.foldl insert set).toList = set.toList ++ items := by
  induction items generalizing set with
  | nil => simp
  | cons s rest ih =>
    have hs : ∀ t ∈ set.toList, t < s := fun t ht =>
      (List.pairwise_append.mp h).2.2 t ht s List.mem_cons_self
    have hinsert : (set.insert s).toList = set.toList ++ [s] := insertInto_of_forall_lt hs
    have hsplit : set.toList ++ s :: rest = (set.insert s).toList ++ rest := by
      rw [hinsert, List.append_assoc, List.singleton_append]
    rw [List.foldl_cons, hsplit]
    exact ih (hsplit ▸ h)

@[simp]
theorem ofList_toList (set : TextSet) : ofList set.toList = set :=
  ext (toList_foldl_insert set.ascending)

end TextSet

end RightsPolicy
