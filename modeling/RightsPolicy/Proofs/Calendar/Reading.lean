import RightsPolicy.Proofs.Calendar.Timestamp

namespace RightsPolicy

theorem Moment.isWritable_instant {m : Moment} (h : m.OnClock)
    (hrange : m.instant.isInRange = true) : m.instant.IsWritable := by
  have hnano := h.nano_lt
  have hsecond := h.second_le
  simp only [Instant.nanosPerSecond] at hnano
  refine ⟨hrange, ?_, ?_⟩
  · simp only [Moment.instant, Instant.ofLocal, Moment.time, Instant.nanosPerSecond]
    split <;> dsimp only <;> omega
  · intro hleap
    have hlast := of_decide_eq_true hleap
    simp only [Moment.instant, Instant.ofLocal, Moment.time, Instant.nanosPerSecond,
      Instant.secondsPerDay] at hlast ⊢
    split at hlast
    · rename_i hsixty
      rw [if_pos hsixty]
      dsimp only
      omega
    · dsimp only at hlast
      omega

theorem Timestamp.isWritable_of_read? {s : String} {t : Instant} (h : read? s = some t) :
    t.IsWritable := by
  obtain ⟨hrange, m, hm, rfl⟩ := read?_eq_some_iff.mp h
  exact Moment.isWritable_instant (onClock_of_spells hm) hrange

end RightsPolicy
