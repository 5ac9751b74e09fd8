import RightsPolicy.Proofs.Store.Assignment

namespace RightsPolicy.Store

structure Indexed (store : Store) : Prop where
  inRange : ∀ (key : PolicyKey) (position : Nat), store.latest[key]? = some position →
    position < store.entries.size
  latest?_eq : ∀ key, store.latest? key = store.entries.toList.findRev? fun entry => entry.key = key

theorem indexed_empty : Indexed empty where
  inRange key position h := by simp [empty] at h
  latest?_eq key := by simp [latest?, empty]

@[simp]
theorem list_empty : empty.list none = [] :=
  rfl

variable {store : Store} {assigned : Assigned} {now : Instant}

@[simp]
theorem entries_append : (store.append assigned now).entries.toList =
    store.entries.toList ++ [⟨assigned.key, assigned.snapshot, now⟩] := by
  simp [append]

theorem latest_append (key : PolicyKey) : (store.append assigned now).latest[key]? =
    if assigned.key = key then some store.entries.size else store.latest[key]? := by
  simp only [append, Std.HashMap.getElem?_insert, beq_iff_eq]

theorem latest?_append (h : store.Indexed) (key : PolicyKey) :
    (store.append assigned now).latest? key =
      if assigned.key = key then some ⟨assigned.key, assigned.snapshot, now⟩
      else store.latest? key := by
  rw [latest?, latest_append]
  by_cases hkey : assigned.key = key
  · simp [hkey, append]
  · rw [if_neg hkey, if_neg hkey, latest?]
    cases hpos : store.latest[key]? with
    | none => rfl
    | some position =>
      have hlt := h.inRange key position hpos
      simp [append, Array.getElem?_push, Nat.ne_of_lt hlt]

theorem Indexed.withCounter (h : store.Indexed) (next : Option UInt64) :
    (store.withCounter next).Indexed :=
  ⟨h.inRange, h.latest?_eq⟩

theorem indexed_append (h : store.Indexed) : (store.append assigned now).Indexed where
  inRange key position hpos := by
    have hsize : (store.append assigned now).entries.size = store.entries.size + 1 := by
      simp [append]
    rw [latest_append] at hpos
    split at hpos
    · cases hpos
      omega
    · have hlt := h.inRange key position hpos
      omega
  latest?_eq key := by
    rw [latest?_append h, entries_append, h.latest?_eq]
    by_cases hkey : assigned.key = key
    · simp [hkey]
    · simp [hkey]

theorem has_eq_isSome (h : store.Indexed) (key : PolicyKey) :
    store.has key = (store.latest? key).isSome := by
  rw [has, Std.HashMap.contains_eq_isSome_getElem?, latest?]
  cases hpos : store.latest[key]? with
  | none => rfl
  | some position =>
    have hlt := h.inRange key position hpos
    simp [hlt]

theorem latest?_eq_none_iff (h : store.Indexed) {key : PolicyKey} :
    store.latest? key = none ↔ ∀ entry ∈ store.entries.toList, entry.key ≠ key := by
  rw [h.latest?_eq, List.findRev?_eq_find?_reverse, List.find?_eq_none]
  simp

theorem has_eq_false_iff (h : store.Indexed) {key : PolicyKey} :
    store.has key = false ↔ ∀ entry ∈ store.entries.toList, entry.key ≠ key := by
  rw [has_eq_isSome h, Option.isSome_eq_false_iff, Option.isNone_iff_eq_none,
    latest?_eq_none_iff h]

theorem has_eq_true_iff (h : store.Indexed) {key : PolicyKey} :
    store.has key = true ↔ ∃ entry ∈ store.list none, entry.key = key := by
  rw [← Bool.not_eq_false, has_eq_false_iff h]
  simp [list]

theorem latest?_eq_some_iff (h : store.Indexed) {key : PolicyKey} {entry : StoredPolicy} :
    store.latest? key = some entry ↔
      entry.key = key ∧ ∃ older newer, store.entries.toList = older ++ entry :: newer ∧
        ∀ later ∈ newer, later.key ≠ key := by
  rw [h.latest?_eq, List.findRev?_eq_find?_reverse, List.find?_eq_some_iff_append]
  constructor
  · rintro ⟨hkey, newer, older, hsplit, hnewer⟩
    refine ⟨by simpa using hkey, older.reverse, newer.reverse, ?_, ?_⟩
    · have hreverse := congrArg List.reverse hsplit
      simpa using hreverse
    · intro later hlater
      simpa using hnewer later (List.mem_reverse.mp hlater)
  · rintro ⟨hkey, older, newer, hsplit, hnewer⟩
    refine ⟨by simpa using hkey, newer.reverse, older.reverse, ?_, ?_⟩
    · rw [hsplit]
      simp
    · intro later hlater
      simpa using hnewer later (List.mem_reverse.mp hlater)

theorem mem_of_latest? (h : store.Indexed) {key : PolicyKey} {entry : StoredPolicy}
    (hlatest : store.latest? key = some entry) :
    entry ∈ store.list none ∧ entry.key = key := by
  obtain ⟨hkey, older, newer, hsplit, -⟩ := (latest?_eq_some_iff h).mp hlatest
  have hmem : entry ∈ store.entries.toList := by simp [hsplit]
  exact ⟨hmem, hkey⟩

theorem exists_latest (h : store.Indexed) {entry : StoredPolicy} (hmem : entry ∈ store.list none) :
    ∃ last ∈ store.list none, store.latest? entry.key = some last ∧ last.key = entry.key := by
  have hheld : store.latest? entry.key ≠ none := by
    intro hnone
    exact (latest?_eq_none_iff h).mp hnone entry hmem rfl
  obtain ⟨last, hlast⟩ := Option.ne_none_iff_exists'.mp hheld
  obtain ⟨hlastMem, hlastKey⟩ := mem_of_latest? h hlast
  exact ⟨last, hlastMem, hlast, hlastKey⟩

end RightsPolicy.Store
