import RightsPolicy.Proofs.Calendar.Offset
import RightsPolicy.Proofs.Document.Form
import RightsPolicy.Proofs.Document.ReadBack
import RightsPolicy.Proofs.Json.Plain
import RightsPolicy.Proofs.Validation.Requirements

namespace RightsPolicy

namespace Codec

theorem read_timestamp_eq_ok_iff {s : String} {t : Option Instant} :
    timestamp.option.read (.text s) = .ok t ↔ ∃ found, Timestamp.read? s = some found ∧
      t = some found := by
  simp only [option, timestamp, map_eq_ok_iff]
  cases Timestamp.read? s with
  | none => simp
  | some found => simp [eq_comm]

end Codec

namespace Json

inductive Retimed (forms : List Form) : Json → Json → Prop
  | mk {time other m n} (htime : .time ∈ forms) (hm : Timestamp.Spells time.toList m)
      (hn : Timestamp.Spells other.toList n) (h : m.SameInstant n) :
      Retimed forms (.text time) (.text other)

theorem Retimed.alike {forms : List Form} (hclear : Form.Clear forms) {value other : Json}
    (h : Retimed forms value other) : Alike forms value other := by
  obtain ⟨htime, hm, hn, hsame⟩ := h
  refine Alike.of_isFlat hclear htime rfl rfl rfl rfl ?_
  intro α codec hdescribes
  cases hdescribes with
  | time =>
    simp only [Codec.option, Codec.timestamp, Timestamp.read?_eq_of_sameInstant hm hn hsame]
    exact .refl _

end Json

namespace GenericPolicy

theorem emptyWindow_iff {policy : GenericPolicy} {first last : Moment} (hfirst : first.OnClock)
    (hlast : last.OnClock) (hfrom : policy.validFrom = some first.instant)
    (hto : policy.validTo = some last.instant) :
    (∃ v ∈ policy.violations, v.code = .invalidValidityWindow) ↔ ¬ first.Before last := by
  rw [← Moment.le_iff hlast hfirst, Instant.le_iff]
  constructor
  · rintro ⟨v, hv, hcode⟩
    cases unmet_of_mem_violations hv with
    | window hfrom' hto' h =>
      cases hfrom.symm.trans hfrom'
      cases hto.symm.trans hto'
      exact h
    | _ => cases hcode
  · intro h
    exact ⟨_, mem_violations_of_unmet (.window hfrom hto h), rfl⟩

end GenericPolicy

namespace GenericDocument

variable {value : Json} {document : GenericDocument} {validFrom validTo : String}

theorem times_of_read (h : codec.read value = .ok document)
    (hfrom : value.HasField 9 "validFrom" (.text validFrom))
    (hto : value.HasField 10 "validTo" (.text validTo)) :
    ∃ first last, Timestamp.read? validFrom = some first ∧ document.validFrom = some first ∧
      Timestamp.read? validTo = some last ∧ document.validTo = some last := by
  obtain ⟨values, hread, rfl⟩ := map_eq_ok_iff.mp h
  obtain ⟨-, -, -, -, -, -, -, -, -, hfirst, hlast, -⟩ :=
    Shape.readsFields_of_read (by decide) hread
  obtain ⟨first, hfirstRead, hfirst⟩ := Codec.read_timestamp_eq_ok_iff.mp (hfirst _ hfrom)
  obtain ⟨last, hlastRead, hlast⟩ := Codec.read_timestamp_eq_ok_iff.mp (hlast _ hto)
  exact ⟨first, last, hfirstRead, hfirst, hlastRead, hlast⟩

theorem times_of_toPolicy {policy : GenericPolicy} (h : document.toPolicy = .ok policy) :
    policy.validFrom = document.validFrom ∧ policy.validTo = document.validTo := by
  obtain ⟨_, _, _, _, _, _, _, _, rfl⟩ := toPolicy_eq_ok_iff.mp h
  exact ⟨rfl, rfl⟩

end GenericDocument

namespace PolicyDocument

/-- The texts of the two times write moments, and whichever these are, the window is reported
exactly when the first is not before the second. The document stays the same when its times are
rewritten, each as another moment of the same instant. -/
theorem times_read_as_instants {text : String} {document : GenericDocument}
    (hread : ofText text = .ok (.generic document)) :
    (∃ value : Json, value.SpelledBy text) ∧
    ∀ (value : Json) (validFrom validTo : String), value.SpelledBy text →
      value.HasField 9 "validFrom" (.text validFrom) →
      value.HasField 10 "validTo" (.text validTo) →
        (∃ first last, Timestamp.Spells validFrom.toList first ∧
          Timestamp.Spells validTo.toList last) ∧
        (∀ first last, Timestamp.Spells validFrom.toList first →
          Timestamp.Spells validTo.toList last →
            ∀ policy, (PolicyDocument.generic document).toPolicy = .ok policy →
              ((∃ v ∈ policy.violations, v.code = .invalidValidityWindow) ↔
                ¬ first.Before last)) ∧
        ∀ (otherText : String) (other : Json), other.SpelledBy otherText →
          Relation.ReflTransGen (Json.Edited Json.Retimed forms) value other →
            ofText otherText = .ok (.generic document) := by
  refine ⟨exists_spelledBy hread, ?_⟩
  intro value validFrom validTo htext hfrom hto
  obtain ⟨t, u, htRead, ht, huRead, hu⟩ :=
    GenericDocument.times_of_read (read_of_ofText_generic htext hread) hfrom hto
  refine ⟨?_, ?_, ?_⟩
  · obtain ⟨first, hfirst⟩ := Timestamp.spells_of_read? htRead
    obtain ⟨last, hlast⟩ := Timestamp.spells_of_read? huRead
    exact ⟨first, last, hfirst, hlast⟩
  · intro first last hfirst hlast policy himport
    obtain ⟨policy, hpolicy, rfl⟩ := map_eq_ok_iff.mp himport
    obtain ⟨hvalidFrom, hvalidTo⟩ := GenericDocument.times_of_toPolicy hpolicy
    rw [Timestamp.read?_of_spells hfirst, Option.ite_none_right_eq_some] at htRead
    rw [Timestamp.read?_of_spells hlast, Option.ite_none_right_eq_some] at huRead
    obtain ⟨-, ⟨⟩⟩ := htRead
    obtain ⟨-, ⟨⟩⟩ := huRead
    exact GenericPolicy.emptyWindow_iff (Timestamp.onClock_of_spells hfirst)
      (Timestamp.onClock_of_spells hlast) (hvalidFrom.trans ht) (hvalidTo.trans hu)
  · intro otherText other hother h
    rw [← hread]
    apply ofText_eq_of_alike htext hother
    exact Json.alike_of_edits (fun _ _ _ hclear hedit => hedit.alike hclear) clear_forms h

def windowed (validFrom validTo : String) : Json :=
  .object [("name", .text "n"), ("kind", .text "usage"), ("validFrom", .text validFrom),
    ("validTo", .text validTo)]

def leapDayEvening : Moment :=
  ⟨⟨2024, 2, 29⟩, 23, 30, 0, 0, -60⟩

def marchNight : Moment :=
  ⟨⟨2024, 3, 1⟩, 2, 0, 0, 0, 120⟩

def leapDayUsage : GenericDocument where
  id := none
  name := "n"
  description := ""
  kind := "usage"
  status := ""
  priority := 0
  targetResources := []
  targetUsers := []
  rules := []
  validFrom := some leapDayEvening.instant
  validTo := some marchNight.instant
  notifications := Notifications.silent
  enforcement := ""

theorem times_read_as_instants_leapDay :
    ofText ((windowed "2024-02-29T23:30:00-01:00" "2024-03-01T02:00:00+02:00").render .compact) =
        .ok (.generic leapDayUsage) ∧
      (∃ policy, (PolicyDocument.generic leapDayUsage).toPolicy = .ok policy ∧
        ∃ v ∈ policy.violations, v.code = .invalidValidityWindow) ∧
      ofText ((windowed "2024-03-01T06:15:00+05:45" "2024-03-01T02:00:00+02:00").render
        .indented) = .ok (.generic leapDayUsage) := by
  have hplain (validFrom validTo : String) :
      Json.Plain Json.Frame.depthLimit (windowed validFrom validTo) := by
    simp [windowed, Json.Frame.depthLimit]
  have hread : ofText ((windowed "2024-02-29T23:30:00-01:00" "2024-03-01T02:00:00+02:00").render
      .compact) = .ok (.generic leapDayUsage) := by
    decide +kernel
  have hfrom : (windowed "2024-02-29T23:30:00-01:00" "2024-03-01T02:00:00+02:00").HasField 9
      "validFrom" (.text "2024-02-29T23:30:00-01:00") := by
    simp [windowed, Json.HasField]
  have hto : (windowed "2024-02-29T23:30:00-01:00" "2024-03-01T02:00:00+02:00").HasField 10
      "validTo" (.text "2024-03-01T02:00:00+02:00") := by
    simp [windowed, Json.HasField]
  have hspells {text : String} {m : Moment} (h : text.toList = Timestamp.momentChars m)
      (hclock : m.OnClock) (hvalid : m.date.isValid = true) (hoffset : m.offset.natAbs < 1440) :
      Timestamp.Spells text.toList m := by
    rw [h]
    exact Timestamp.spells_momentChars hclock hvalid hoffset
  have hfirst : Timestamp.Spells "2024-02-29T23:30:00-01:00".toList leapDayEvening :=
    hspells (by decide +kernel) (by decide) (by decide) (by decide)
  have hlast : Timestamp.Spells "2024-03-01T02:00:00+02:00".toList marchNight :=
    hspells (by decide +kernel) (by decide) (by decide) (by decide)
  have hmoved : Timestamp.Spells "2024-03-01T06:15:00+05:45".toList (leapDayEvening.setTo 345) :=
    hspells (by decide +kernel) (by decide +kernel) (by decide +kernel) (by decide +kernel)
  obtain ⟨-, hwindow, hretimed⟩ := (times_read_as_instants hread).2 _ _ _
    ((hplain _ _).spelledBy .compact) hfrom hto
  refine ⟨hread, ?_, ?_⟩
  · obtain ⟨policy, himport⟩ : ∃ policy,
        (PolicyDocument.generic leapDayUsage).toPolicy = .ok policy := ⟨_, rfl⟩
    refine ⟨policy, himport, ?_⟩
    exact (hwindow _ _ hfirst hlast policy himport).mpr (by decide +kernel)
  · have htime := @Json.Edited.here Json.Retimed [.time] _ _
      (.mk List.mem_cons_self hfirst hmoved
        (Moment.sameInstant_setTo (by decide : leapDayEvening.OnClock) 345))
    have hedit := @Json.Edited.member Json.Retimed forms "validFrom"
      [("name", .text "n"), ("kind", .text "usage")] _ _
      [("validTo", .text "2024-03-01T02:00:00+02:00")] htime
    exact hretimed _ _ ((hplain _ _).spelledBy .indented) (.single hedit)

end PolicyDocument

end RightsPolicy
