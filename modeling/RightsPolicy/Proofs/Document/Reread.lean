import RightsPolicy.Proofs.Calendar.Reading
import RightsPolicy.Proofs.Document.Normal
import RightsPolicy.Proofs.Document.Text
import RightsPolicy.Proofs.Json.Reading
import RightsPolicy.Validation

namespace RightsPolicy

theorem Codec.isWritable_of_read {value : Json} {t : Instant}
    (h : timestamp.read value = .ok t) : t.IsWritable := by
  dsimp only [timestamp] at h
  split at h
  · split at h
    · rename_i hread
      cases h
      exact Timestamp.isWritable_of_read? hread
    · cases h
  · cases h

theorem Member.isWritable_of_reads {name : String} {time : Option Instant}
    (h : (optional name .timestamp).Reads time) : ∀ t ∈ time, t.IsWritable := by
  rintro t rfl
  obtain ⟨value, hvalue⟩ := reads_optional h
  exact Codec.isWritable_of_read hvalue

theorem GenericDocument.isWritable_of_read {value : Json} {document : GenericDocument}
    (h : codec.read value = .ok document) : document.IsWritable := by
  obtain ⟨values, hvalues, rfl⟩ := map_eq_ok_iff.mp h
  obtain ⟨-, -, -, -, -, -, -, -, -, hfrom, hto, -⟩ := Shape.reads_of_read hvalues
  exact ⟨Member.isWritable_of_reads hfrom, Member.isWritable_of_reads hto⟩

namespace PolicyDocument

variable {document : PolicyDocument} {blanks : List Char}

theorem isWritable_of_ofJson? {value : Json} (h : ofJson? value = some document) :
    document.IsWritable := by
  unfold ofJson? at h
  split at h
  · cases h
    trivial
  · split at h
    · rename_i hread
      cases h
      exact GenericDocument.isWritable_of_read hread
    · cases h

theorem isWritable_of_ofText {text : String} (h : ofText text = .ok document) :
    document.IsWritable := by
  dsimp only [ofText] at h
  split at h
  · split at h
    · rename_i found hfound
      split at h
      · cases h
        exact isWritable_of_ofJson? hfound
      · cases h
    · cases h
  · cases h

theorem isWritable_normalized (h : document.IsWritable) (config : CanonicalConfig) :
    (document.normalized config).IsWritable := by
  cases document with
  | odrl document => trivial
  | generic document => exact ⟨h.validFrom, h.validTo⟩

theorem ofText_render_append (h : document.IsWritable) (pretty : Bool)
    (hblanks : ∀ c ∈ blanks, Json.Scan.isBlank c = true) :
    ofText (document.render pretty ++ String.ofList blanks) = .ok document := by
  have hplain := plain_toJson h
  have hparse := Json.ofText_render_append hplain (by decide) (layoutFor pretty) hblanks
  simp only [ofText, render, hparse, hplain.isReadable, ofJson?_toJson h]
  rfl

end PolicyDocument

theorem Policy.violations_orProfile (policy : Policy) (profile : Option String) :
    (policy.orProfile profile).violations = policy.violations := by
  cases policy <;> rfl

namespace PolicyDocument

theorem reread_of_ofText {text : String} {document : PolicyDocument} {policy : Policy}
    (hread : ofText text = .ok document) (himport : document.toPolicy = .ok policy)
    (config : CanonicalConfig) (pretty : Bool) {blanks : List Char}
    (hblanks : ∀ c ∈ blanks, Json.Scan.isBlank c = true) :
    ofText ((policy.toDocument config).render pretty ++ String.ofList blanks) =
        .ok (policy.toDocument config) ∧
      ∃ again, (policy.toDocument config).toPolicy = .ok again ∧
        again.violations = policy.violations ∧
        again.toDocument config = policy.toDocument config := by
  have hnormal := toDocument_of_toPolicy himport config
  have hwritable := isWritable_normalized (isWritable_of_ofText hread) config
  rw [← hnormal] at hwritable
  have hagain := Policy.toPolicy_toDocument policy config
  rw [renumbered_of_toPolicy himport] at hagain
  refine ⟨ofText_render_append hwritable pretty hblanks, _, hagain,
    Policy.violations_orProfile _ _, ?_⟩
  rw [toDocument_of_toPolicy hagain, hnormal, normalized_normalized]

end PolicyDocument

end RightsPolicy
