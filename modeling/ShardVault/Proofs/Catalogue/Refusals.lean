import ShardVault.Catalogue.IndexRecord
import ShardVault.Catalogue.Metadata
import ShardVault.Proofs.Json.Limits
import ShardVault.Proofs.Text.Utf8

namespace ShardVault

namespace Document

variable {α : Type}

def Corrupt (failure : Failure) : Prop :=
  ∃ fault, failure = .corruptMetadata fault

theorem family?_of_corrupt (failure : Failure) : Corrupt failure → failure.family? ≠ none := by
  rintro ⟨fault, rfl⟩
  exact Option.some_ne_none _

theorem corrupt_fails (fault : RecordFault) : FailsWith Corrupt (corrupt fault : Except Failure α) :=
  .error ⟨fault, rfl⟩

theorem ofField_fails (field : Except FieldFault α) : FailsWith Corrupt (ofField field) :=
  .mapError fun fault ↦ ⟨.field fault, rfl⟩

theorem readTime_fails (t : Text) : FailsWith Corrupt (readTime t) := by
  unfold readTime
  split
  · exact .ok _
  · exact corrupt_fails _

theorem readStatus_fails (t : Text) : FailsWith Corrupt (readStatus t) := by
  unfold readStatus
  split
  · exact .ok _
  · exact corrupt_fails _

theorem fields_refuses (document : Document) :
    Refuses Corrupt document.toText? document.fields := by
  unfold fields
  rcases document.toText? with _ | t
  · exact .within (corrupt_fails _) rfl
  simp only []
  split
  · next h => exact .within (.ok _) (by rw [Option.bind_some, Json.excess?, h])
  · next h => exact .within (corrupt_fails _) (by rw [Option.bind_some, Json.excess?, h])
  · next h => exact .within (corrupt_fails _) (by rw [Option.bind_some, Json.excess?, h])
  · next h => exact .beyond (by rw [Option.bind_some, Json.excess?, h])
  · next h => exact .beyond (by rw [Option.bind_some, Json.excess?, h])

theorem toText?_brackets :
    (bytes (Utf8.encodeAll Json.brackets)).toText? = some Json.brackets :=
  Encoding.decode_encodeAll (a := CodePoint.ofChar '[') (b := CodePoint.ofChar '[') (by decide)
    (by decide) (by decide) (by decide) (List.replicate 989 (CodePoint.ofChar '['))

end Document

open Document in
theorem Metadata.ofFields_fails (fields : Entries Json) : FailsWith Corrupt (ofFields fields) := by
  unfold ofFields
  refine (ofField_fails _).bind fun version _ ↦ (corrupt_fails _).ite ?_
  refine (ofField_fails _).bind fun items _ ↦ ?_
  split
  · exact corrupt_fails _
  refine (ofField_fails _).bind fun fileId _ ↦ ?_
  refine (ofField_fails _).bind fun fileName _ ↦ ?_
  refine (ofField_fails _).bind fun plainSize _ ↦ ?_
  refine (ofField_fails _).bind fun encryptedSize _ ↦ ?_
  refine (ofField_fails _).bind fun merkleRoot _ ↦ ?_
  refine (ofField_fails _).bind fun plainHash _ ↦ ?_
  refine (ofField_fails _).bind fun totalShards _ ↦ ?_
  refine (ofField_fails _).bind fun dataShards _ ↦ ?_
  refine (ofField_fails _).bind fun parityShards _ ↦ ?_
  refine (ofField_fails _).bind fun folderId _ ↦ ?_
  refine (ofField_fails _).bind fun spelled _ ↦ (readTime_fails _).bind fun createdAt _ ↦ ?_
  refine (ofField_fails _).bind fun named _ ↦ (readStatus_fails _).bind fun status _ ↦ ?_
  exact (corrupt_fails _).ite ((corrupt_fails _).ite ((corrupt_fails _).ite (.ok _)))

/-- Metadata are refused as corrupt, unless their text is beyond the limits of documents. -/
theorem Metadata.decode_refuses (document : Document) :
    Refuses Document.Corrupt document.toText? (decode document) :=
  document.fields_refuses.bind ofFields_fails

open Document in
theorem IndexRecord.ofFields_fails (fields : Entries Json) : FailsWith Corrupt (ofFields fields) := by
  unfold ofFields
  refine (ofField_fails _).bind fun id _ ↦ ?_
  refine (ofField_fails _).bind fun name _ ↦ ?_
  refine (ofField_fails _).bind fun path _ ↦ ?_
  refine (ofField_fails _).bind fun size _ ↦ ?_
  refine (ofField_fails _).bind fun mimeType _ ↦ ?_
  refine (ofField_fails _).bind fun created _ ↦ (readTime_fails _).bind fun createdAt _ ↦ ?_
  refine (ofField_fails _).bind fun modified _ ↦ (readTime_fails _).bind fun modifiedAt _ ↦ ?_
  refine (ofField_fails _).bind fun folderId _ ↦ ?_
  exact (ofField_fails _).bind fun named _ ↦ (readStatus_fails _).bind fun status _ ↦ .ok _

theorem IndexRecord.decode_refuses (document : Document) :
    Refuses Document.Corrupt document.toText? (decode document) :=
  document.fields_refuses.bind ofFields_fails

end ShardVault
