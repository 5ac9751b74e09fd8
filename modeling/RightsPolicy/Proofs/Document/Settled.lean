import RightsPolicy.Proofs.Document.Reread

namespace RightsPolicy

namespace Instant

structure IsRepresentable (t : Instant) : Prop where
  isInRange : t.isInRange = true
  nano_lt : t.nano < 2 * nanosPerSecond

def settled (t : Instant) : Instant :=
  if t.isLeapSecond = true ∧ t.second % 60 ≠ 59 then ⟨t.second + 1, t.nano - nanosPerSecond⟩ else t

variable {t : Instant}

section MidMinute

variable (hmid : t.isLeapSecond = true ∧ t.second % 60 ≠ 59)

include hmid

theorem settled_of_mid : t.settled = ⟨t.second + 1, t.nano - nanosPerSecond⟩ :=
  if_pos hmid

theorem date_settled_of_mid : t.settled.date = t.date := by
  have hday : (t.second + 1) / secondsPerDay = t.second / secondsPerDay := by
    have hlast := hmid.2
    simp only [secondsPerDay]
    omega
  rw [settled_of_mid hmid, date, hday, ← date]

theorem secondOfDay_settled_of_mid : t.settled.secondOfDay = t.secondOfDay + 1 := by
  have hlast := hmid.2
  simp only [settled_of_mid hmid, secondOfDay, secondsPerDay]
  omega

theorem isLeapSecond_settled_of_mid (hnano : t.nano < 2 * nanosPerSecond) :
    t.settled.isLeapSecond = false := by
  simp only [settled_of_mid hmid, isLeapSecond, nanosPerSecond, decide_eq_false_iff_not] at hnano ⊢
  omega

end MidMinute

theorem isWritable_settled (h : t.IsRepresentable) : t.settled.IsWritable := by
  have hrange := h.isInRange
  by_cases hmid : t.isLeapSecond = true ∧ t.second % 60 ≠ 59
  · refine ⟨?_, ?_, ?_⟩
    · rwa [isInRange, date_settled_of_mid hmid]
    · rw [settled_of_mid hmid]
      exact Nat.lt_of_le_of_lt (Nat.sub_le _ _) h.nano_lt
    · intro hleap
      rw [isLeapSecond_settled_of_mid hmid h.nano_lt] at hleap
      cases hleap
  · rw [settled, if_neg hmid]
    refine ⟨hrange, h.nano_lt, ?_⟩
    intro hleap
    by_contra hlast
    exact hmid ⟨hleap, hlast⟩

end Instant

namespace Timestamp

theorem timeChars_succ {second : Nat} (h : second % 60 ≠ 59) :
    timeChars (second + 1) false = timeChars second true := by
  have hhour : (second + 1) / 3600 = second / 3600 := by omega
  have hminute : (second + 1) / 60 = second / 60 := by omega
  have hsecond : (second + 1) % 60 = second % 60 + 1 := by omega
  simp [timeChars, hhour, hminute, hsecond]

theorem text_settled {t : Instant} (h : t.nano < 2 * Instant.nanosPerSecond) :
    text t.settled = text t := by
  by_cases hmid : t.isLeapSecond = true ∧ t.second % 60 ≠ 59
  · have hsecond : t.secondOfDay % 60 ≠ 59 := by
      have hlast := hmid.2
      simp only [Instant.secondOfDay, Instant.secondsPerDay]
      omega
    have hnano : t.settled.nano % Instant.nanosPerSecond = t.nano % Instant.nanosPerSecond := by
      have hleap := hmid.1
      simp only [Instant.isLeapSecond, decide_eq_true_eq] at hleap
      rw [Instant.settled_of_mid hmid, ← Nat.mod_eq_sub_mod hleap]
    rw [text, chars, Instant.date_settled_of_mid hmid, Instant.secondOfDay_settled_of_mid hmid,
      Instant.isLeapSecond_settled_of_mid hmid h, timeChars_succ hsecond, hnano, text, chars,
      hmid.1]
  · rw [Instant.settled, if_neg hmid]

end Timestamp

theorem Member.write_settled {name : String} {time : Option Instant}
    (h : ∀ t ∈ time, t.IsRepresentable) :
    (optional name .timestamp).isOmitted (time.map Instant.settled) =
        (optional name .timestamp).isOmitted time ∧
      (optional name .timestamp).codec.write (time.map Instant.settled) =
        (optional name .timestamp).codec.write time := by
  cases time with
  | none => exact ⟨rfl, rfl⟩
  | some t => exact ⟨rfl, congrArg Json.text (Timestamp.text_settled (h t rfl).nano_lt)⟩

namespace GenericDocument

def settled (document : GenericDocument) : GenericDocument :=
  { document with
    validFrom := document.validFrom.map Instant.settled
    validTo := document.validTo.map Instant.settled }

theorem write_settled {document : GenericDocument}
    (hfrom : ∀ t ∈ document.validFrom, t.IsRepresentable)
    (hto : ∀ t ∈ document.validTo, t.IsRepresentable) :
    codec.write document.settled = codec.write document := by
  obtain ⟨hfromOmitted, hfromWrite⟩ := @Member.write_settled "validFrom" _ hfrom
  obtain ⟨htoOmitted, htoWrite⟩ := @Member.write_settled "validTo" _ hto
  simp only [codec, Shape.codec, Shape.members, settled, hfromOmitted, hfromWrite, htoOmitted,
    htoWrite]

end GenericDocument

namespace Policy

def IsRepresentable : Policy → Prop
  | .odrl _ => True
  | .generic policy =>
    (∀ t ∈ policy.validFrom, t.IsRepresentable) ∧ ∀ t ∈ policy.validTo, t.IsRepresentable

def settled : Policy → Policy
  | .odrl policy => .odrl policy
  | .generic policy => .generic
    { policy with
      validFrom := policy.validFrom.map Instant.settled
      validTo := policy.validTo.map Instant.settled }

variable {policy : Policy}

theorem toJson_settled (h : policy.IsRepresentable) (config : CanonicalConfig) :
    (policy.settled.toDocument config).toJson = (policy.toDocument config).toJson := by
  cases policy with
  | odrl policy => rfl
  | generic policy => exact @GenericDocument.write_settled policy.toDocument h.1 h.2

theorem isWritable_settled (h : policy.IsRepresentable) (config : CanonicalConfig) :
    (policy.settled.toDocument config).IsWritable := by
  have hsettled {time : Option Instant} (htime : ∀ t ∈ time, t.IsRepresentable) :
      ∀ t ∈ time.map Instant.settled, t.IsWritable := by
    intro t ht
    obtain ⟨t, hmem, rfl⟩ := Option.mem_map.mp ht
    exact Instant.isWritable_settled (htime t hmem)
  cases policy with
  | odrl policy => trivial
  | generic policy => exact ⟨hsettled h.1, hsettled h.2⟩

theorem ofText_render (h : policy.IsRepresentable) (config : CanonicalConfig) (pretty : Bool) :
    PolicyDocument.ofText ((policy.toDocument config).render pretty) =
      .ok (policy.settled.toDocument config) := by
  have hread := @PolicyDocument.ofText_render_append _ [] (isWritable_settled h config) pretty
    (by simp)
  rwa [PolicyDocument.render, toJson_settled h, ← PolicyDocument.render, String.ofList_nil,
    String.append_empty] at hread

end Policy

end RightsPolicy
