import ShardVault.Proofs.Container.Reading
import ShardVault.Proofs.Json.Limits

namespace ShardVault.Container

variable {α : Type}

def Corrupt (failure : Failure) : Prop :=
  ∃ fault, failure = .corruptContainer fault

theorem family?_of_corrupt (failure : Failure) : Corrupt failure → failure.family? ≠ none := by
  rintro ⟨fault, rfl⟩
  exact Option.some_ne_none _

/-- The text of the header, if the bytes are framed as those of a container. -/
def headerText? (bs : Bytes) : Option Text :=
  if bs.length < 10 ∨ bs.take 4 ≠ magic ∨ Bytes.toNat ((bs.drop 4).take 2) ≠ formVersion then none
  else (splitAt? (Bytes.toNat ((bs.drop 6).take 4)) (bs.drop 10)).bind fun parts ↦
    Utf8.decode parts.1

theorem corrupt_fails (fault : ContainerFault) : FailsWith Corrupt (corrupt fault : Except Failure α) :=
  .error ⟨fault, rfl⟩

theorem ofField_fails (field : Except FieldFault α) : FailsWith Corrupt (ofField field) :=
  .mapError fun fault ↦ ⟨.field fault, rfl⟩

theorem readTime_fails (t : Text) : FailsWith Corrupt (readTime t) := by
  unfold readTime
  split
  · exact .ok _
  · exact corrupt_fails _

theorem readChunk_fails (position : Nat) (item : Json) (bs : Bytes) :
    FailsWith Corrupt (readChunk position item bs) := by
  unfold readChunk
  split
  · refine (ofField_fails _).bind fun index _ ↦ (corrupt_fails _).ite ?_
    refine (ofField_fails _).bind fun length _ ↦ ?_
    split
    · exact corrupt_fails _
    · refine FailsWith.bind (.mapError fun fault ↦ ⟨.block fault, rfl⟩) fun block _ ↦ ?_
      exact (ofField_fails _).bind fun hash _ ↦ .ok _
  · exact corrupt_fails _

theorem readChunks_fails (position : Nat) (done : List Chunk) (items : List Json) (bs : Bytes) :
    FailsWith Corrupt (readChunks position done items bs) := by
  induction items generalizing position done bs with
  | nil => exact .ok _
  | cons item items ih =>
    rw [readChunks]
    split
    · next failure hchunk => exact .error ((readChunk_fails position item bs).of_eq failure hchunk)
    · exact ih ..

theorem ofHeader_fails (fields : Entries Json) (body : Bytes) :
    FailsWith Corrupt (ofHeader fields body) := by
  unfold ofHeader
  refine (ofField_fails _).bind fun fileId _ ↦ ?_
  refine (ofField_fails _).bind fun merkleRoot _ ↦ ?_
  refine (ofField_fails _).bind fun plainHash _ ↦ ?_
  refine (ofField_fails _).bind fun plainSize _ ↦ ?_
  refine (ofField_fails _).bind fun chunkSize _ ↦ ?_
  refine (ofField_fails _).bind fun spelled _ ↦ ?_
  refine (readTime_fails _).bind fun createdAt _ ↦ ?_
  refine (ofField_fails _).bind fun table _ ↦ (corrupt_fails _).ite ?_
  exact (readChunks_fails ..).bind fun parts _ ↦ .ite (.ok _) (corrupt_fails _)

theorem readHeader_refuses (bs : Bytes) : Refuses Corrupt (Utf8.decode bs) (readHeader bs) := by
  unfold readHeader
  rcases Utf8.decode bs with _ | t
  · exact .within (corrupt_fails _) rfl
  simp only []
  split
  · next h => exact .within (.ok _) (by rw [Option.bind_some, Json.excess?, h])
  · next h => exact .within (corrupt_fails _) (by rw [Option.bind_some, Json.excess?, h])
  · next h => exact .within (corrupt_fails _) (by rw [Option.bind_some, Json.excess?, h])
  · next h => exact .beyond (by rw [Option.bind_some, Json.excess?, h])
  · next h => exact .beyond (by rw [Option.bind_some, Json.excess?, h])

/-- Containers are refused as corrupt, unless their header is beyond the limits of documents. -/
theorem decode_refuses (bs : Bytes) : Refuses Corrupt (headerText? bs) (decode bs) := by
  unfold decode headerText?
  by_cases short : bs.length < 10
  · rw [if_pos short, if_pos (.inl short)]
    exact .within (corrupt_fails _) rfl
  by_cases other : bs.take 4 ≠ magic
  · rw [if_neg short, if_pos other, if_pos (.inr (.inl other))]
    exact .within (corrupt_fails _) rfl
  rw [if_neg short, if_neg other]
  by_cases version : Bytes.toNat ((bs.drop 4).take 2) ≠ formVersion
  · simp only [if_pos version, if_pos (Or.inr (Or.inr version))]
    exact .within (corrupt_fails _) rfl
  simp only [if_neg version, if_neg (not_or.2 ⟨short, not_or.2 ⟨other, version⟩⟩)]
  split
  · next none =>
    rw [none]
    exact .within (corrupt_fails _) rfl
  · next own body split =>
    rw [split]
    exact (readHeader_refuses own).bind fun fields ↦ ofHeader_fails fields body

theorem decode_brackets : decode (bare Json.brackets) = .error .tooDeep := by
  have scalar := Text.isScalar_of_ascii Json.ascii_of_mem_brackets
  have size : (Utf8.encodeAll Json.brackets).length = Json.brackets.length := by
    rw [Utf8.encodeAll_of_ascii Json.ascii_of_mem_brackets, List.length_map]
  have fits : (Utf8.encodeAll Json.brackets).length < 0x100000000 := by
    rw [size, Json.brackets, List.length_replicate]
    decide
  have deep : readHeader (Utf8.encodeAll Json.brackets) = .error .tooDeep := by
    refine (readHeader_refuses _).excess _ ?_
    rw [Utf8.decode_encodeAll scalar, Option.bind_some, Json.excess?_brackets]
  have cut := splitAt?_append (Utf8.encodeAll Json.brackets) []
  rw [List.append_nil] at cut
  rw [bare, ← size, decode_preamble fits, cut]
  simp only [deep, error_bind]

end ShardVault.Container
