import ShardVault.Proofs.Container.Reading
import ShardVault.Proofs.Container.Workers

namespace ShardVault

theorem Text.guarded_fails {α : Type} (texts : List Text) (result : α) :
    FailsWith (· = .unencodable) (guarded texts result) :=
  ⟨fun _ h ↦ (guarded_eq_error_iff.1 h).2⟩

def KeyDeriver.HasMaster (deriver : KeyDeriver) : Prop :=
  ∃ master : Bytes, deriver.source.master = .ok (some master) ∧ master.length = 32

theorem KeyDeriver.fileKey_eq_unencodable_iff {deriver : KeyDeriver} {fileId : Text} :
    deriver.fileKey fileId = .error .unencodable ↔
      deriver.HasMaster ∧ fileId.isScalar = false := by
  have given : deriver.source.master ≠ .error .unencodable := by
    intro h
    obtain ⟨fault, hfault⟩ := deriver.source.master_fails.of_eq _ h
    cases hfault
  unfold HasMaster
  rw [fileKey, bind_eq_error, or_iff_right given]
  constructor
  · rintro ⟨found, hmaster, h⟩
    cases found with
    | none => cases h
    | some master =>
      simp only [ne_eq] at h
      split at h
      · cases h
      next size =>
      refine ⟨⟨master, hmaster, not_not.1 size⟩, Bool.eq_false_iff.2 fun scalar ↦ ?_⟩
      simp only [deriveKey, Text.encode_eq_ok_iff.2 ⟨scalar, rfl⟩] at h
      cases h
  · rintro ⟨⟨master, hmaster, size⟩, scalar⟩
    refine ⟨some master, hmaster, ?_⟩
    simp [size, deriveKey, Text.encode, Utf8.encode, scalar]

namespace Container

def Declared (failure : Failure) : Prop :=
  failure.family? = some .keyUnavailable ∨ failure.family? = some .authentication ∨
    failure.family? = some .integrity

theorem declared_of_key (failure : Failure) : (∃ fault, failure = .keyUnavailable fault) →
    Declared failure := by
  rintro ⟨fault, rfl⟩
  exact .inl rfl

theorem declared_of_seal (failure : Failure) : (∃ fault, failure = .authentication fault) →
    Declared failure := by
  rintro ⟨fault, rfl⟩
  exact .inr (.inl rfl)

theorem violated_declared {α : Type} (fault : IntegrityFault) :
    FailsWith Declared (violated fault : Except Failure α) :=
  .error (.inr (.inr rfl))

theorem ne_unencodable {α : Type} {x : Except Failure α} (h : FailsWith Declared x) :
    x ≠ .error .unencodable := by
  intro same
  have declared := h.of_eq _ same
  simp [Declared, Failure.family?] at declared

variable {deriver : KeyDeriver} {c : Container} {key : CipherKey} {chunk : Chunk}

/-- A text has no encoding that is needed before the first chunk is opened: the root, the hash of a
chunk, or, once the root is that of the chunks and there is a master key, the id. -/
def Garbled (deriver : KeyDeriver) (c : Container) : Prop :=
  (∃ t ∈ c.merkleRoot :: c.chunkHashes, t.isScalar = false) ∨
    Merkle.root c.chunkHashes = c.merkleRoot ∧ deriver.HasMaster ∧ c.fileId.isScalar = false

theorem fileKey_fails (deriver : KeyDeriver) (fileId : Text) :
    FailsWith (fun failure ↦ Declared failure ∨ failure = .unencodable)
      (deriver.fileKey fileId) := by
  refine (deriver.source.master_fails.mono fun failure h ↦ .inl (declared_of_key failure h)).bind
    fun found _ ↦ ?_
  cases found with
  | none => exact .error (.inl (.inl rfl))
  | some master =>
    refine .ite (.error (.inl (.inl rfl))) ?_
    unfold deriveKey Text.encode
    rcases Utf8.encode fileId with _ | salt
    · exact .error (.inr rfl)
    · exact .ok _

theorem unlock_fails (deriver : KeyDeriver) (c : Container) (fault : IntegrityFault) :
    FailsWith (fun failure ↦ Declared failure ∨ failure = .unencodable)
      (unlock deriver c fault) := by
  refine ((Text.guarded_fails _ _).mono fun _ ↦ .inr).bind fun same _ ↦ ?_
  exact .ite (fileKey_fails deriver c.fileId) ((violated_declared fault).mono fun _ ↦ .inl)

theorem unlock_eq_ok_iff {fault : IntegrityFault} : unlock deriver c fault = .ok key ↔
    (∀ t ∈ c.merkleRoot :: c.chunkHashes, t.isScalar = true) ∧
      Merkle.root c.chunkHashes = c.merkleRoot ∧ deriver.fileKey c.fileId = .ok key := by
  rw [← List.all_eq_true, unlock, bind_eq_ok]
  simp only [Text.guarded_eq_ok_iff]
  constructor
  · rintro ⟨same, ⟨scalars, rfl⟩, h⟩
    split at h
    · next root => exact ⟨scalars, beq_iff_eq.1 root, h⟩
    · cases h
  · rintro ⟨scalars, root, h⟩
    exact ⟨_, ⟨scalars, rfl⟩, by rw [if_pos (beq_iff_eq.2 root), h]⟩

theorem unlock_eq_unencodable_iff {fault : IntegrityFault} :
    unlock deriver c fault = .error .unencodable ↔ Garbled deriver c := by
  rw [unlock, bind_eq_error]
  simp only [Text.guarded_eq_error_iff, and_true, Text.guarded_eq_ok_iff, Garbled]
  refine or_congr_right' fun legible ↦ ?_
  have scalars : (c.merkleRoot :: c.chunkHashes).all Text.isScalar = true := by
    simpa using legible
  constructor
  · rintro ⟨same, ⟨-, rfl⟩, h⟩
    split at h
    · next root => exact ⟨beq_iff_eq.1 root, KeyDeriver.fileKey_eq_unencodable_iff.1 h⟩
    · cases h
  · rintro ⟨root, h⟩
    refine ⟨_, ⟨scalars, rfl⟩, ?_⟩
    rw [if_pos (beq_iff_eq.2 root), KeyDeriver.fileKey_eq_unencodable_iff.2 h]

theorem openChunk_declared (key : CipherKey) (h : chunk.hash.isScalar = true) :
    FailsWith Declared (openChunk key chunk) := by
  apply (openChunk_fails key h).mono
  rintro failure (hseal | rfl)
  · exact declared_of_seal failure hseal
  · exact .inr (.inr rfl)

theorem openChunks_declared (key : CipherKey) {chunks : List Chunk}
    (h : ∀ chunk ∈ chunks, chunk.hash.isScalar = true) :
    FailsWith Declared (openChunks key [] chunks) := by
  rw [openChunks_eq]
  exact (FailsWith.mapM fun chunk hc ↦ openChunk_declared key (h chunk hc)).map _

theorem openWhole_fails (key : CipherKey) (h : ∀ chunk ∈ c.chunks, chunk.hash.isScalar = true) :
    FailsWith (fun failure ↦ Declared failure ∨ failure = .unencodable) (c.openWhole key) := by
  refine ((openChunks_declared key h).mono fun _ ↦ .inl).bind fun pieces _ ↦ ?_
  refine .ite ((violated_declared _).mono fun _ ↦ .inl) ?_
  refine ((Text.guarded_fails _ _).mono fun _ ↦ .inr).bind fun same _ ↦ ?_
  exact .ite ((violated_declared _).mono fun _ ↦ .inl) (.ok _)

theorem openWhole_eq_unencodable_iff (h : ∀ chunk ∈ c.chunks, chunk.hash.isScalar = true) :
    c.openWhole key = .error .unencodable ↔
      c.plainHash.isScalar = false ∧ ∃ pieces, List.Forall₂ (Opens key) c.chunks pieces ∧
        (pieces.flatten.length : Int) = c.plainSize := by
  rw [openWhole, bind_eq_error, or_iff_right (ne_unencodable (openChunks_declared key h))]
  simp only [openChunks_eq_ok_iff]
  constructor
  · rintro ⟨pieces, opens, failed⟩
    split at failed
    · cases failed
    next size =>
    rcases bind_eq_error.1 failed with garbled | ⟨same, -, failed⟩
    · obtain ⟨⟨t, ht, garbled⟩, -⟩ := Text.guarded_eq_error_iff.1 garbled
      rcases List.mem_pair.1 ht with rfl | rfl
      · cases (Sha256.isScalar_hex _).symm.trans garbled
      · exact ⟨garbled, pieces, opens, not_not.1 size⟩
    · split at failed
      · cases failed
      · cases failed
  · rintro ⟨garbled, pieces, opens, size⟩
    have refused : Text.sameDigest (Sha256.hex pieces.flatten) c.plainHash =
        .error .unencodable :=
      Text.guarded_eq_error_iff.2 ⟨⟨c.plainHash, by simp, garbled⟩, rfl⟩
    refine ⟨pieces, opens, ?_⟩
    simp only [size, ne_eq, not_true_eq_false, if_false, refused, error_bind]

theorem decrypt_fails (deriver : KeyDeriver) (placed : firstMoved? 0 c.chunks = none) :
    FailsWith (fun failure ↦ Declared failure ∨ failure = .unencodable) (c.decrypt deriver) := by
  rw [decrypt_eq_unlock deriver placed]
  refine (unlock_fails _ _ _).bind fun key unlocked ↦ openWhole_fails key ?_
  obtain ⟨scalars, -⟩ := unlock_eq_ok_iff.1 unlocked
  exact List.forall_mem_map.1 (List.forall_mem_cons.1 scalars).2

theorem decryptChunk_fails (deriver : KeyDeriver) {place : Nat}
    (found : c.chunks[place]? = some chunk) :
    FailsWith (fun failure ↦ Declared failure ∨ failure = .unencodable)
      (c.decryptChunk deriver place) := by
  rw [decryptChunk_eq_unlock deriver found]
  refine (unlock_fails _ _ _).bind fun key unlocked ↦
    (openChunk_declared key ?_).mono fun _ ↦ .inl
  obtain ⟨scalars, -⟩ := unlock_eq_ok_iff.1 unlocked
  exact List.forall_mem_map.1 (List.forall_mem_cons.1 scalars).2 chunk (List.mem_of_getElem? found)

/-- The whole file decrypts to the failure of an encoding just if a text is garbled that is needed
before the chunks, or if everything but the hash of the file is right and that is garbled. -/
theorem decrypt_eq_unencodable_iff (placed : firstMoved? 0 c.chunks = none) :
    c.decrypt deriver = .error .unencodable ↔ Garbled deriver c ∨
      Merkle.root c.chunkHashes = c.merkleRoot ∧ c.plainHash.isScalar = false ∧
        ∃ key pieces, deriver.fileKey c.fileId = .ok key ∧
          List.Forall₂ (Opens key) c.chunks pieces ∧
          (pieces.flatten.length : Int) = c.plainSize := by
  rw [decrypt_eq_unlock deriver placed, bind_eq_error, unlock_eq_unencodable_iff]
  refine or_congr_right ?_
  simp only [unlock_eq_ok_iff]
  constructor
  · rintro ⟨key, ⟨scalars, root, hkey⟩, failed⟩
    have hashes := List.forall_mem_map.1 (List.forall_mem_cons.1 scalars).2
    obtain ⟨garbled, pieces, opens⟩ := (openWhole_eq_unencodable_iff hashes).1 failed
    exact ⟨root, garbled, key, pieces, hkey, opens⟩
  · rintro ⟨root, garbled, key, pieces, hkey, opens, size⟩
    -- Chunks that open have encodable hashes, and so has the root over these.
    have leaves := isScalar_of_opens opens
    have top : c.merkleRoot.isScalar = true := root ▸ Merkle.isScalar_root leaves
    refine ⟨key, ⟨List.forall_mem_cons.2 ⟨top, leaves⟩, root, hkey⟩, ?_⟩
    exact (openWhole_eq_unencodable_iff (List.forall_mem_map.1 leaves)).2
      ⟨garbled, pieces, opens, size⟩

theorem decryptChunk_eq_unencodable_iff {place : Nat} (found : c.chunks[place]? = some chunk) :
    c.decryptChunk deriver place = .error .unencodable ↔ Garbled deriver c := by
  rw [decryptChunk_eq_unlock deriver found, bind_eq_error, unlock_eq_unencodable_iff,
    or_iff_left]
  rintro ⟨key, unlocked, failed⟩
  obtain ⟨scalars, -⟩ := unlock_eq_ok_iff.1 unlocked
  have hashes := List.forall_mem_map.1 (List.forall_mem_cons.1 scalars).2
  exact ne_unencodable (openChunk_declared key (hashes chunk (List.mem_of_getElem? found))) failed

/-- A container that was read is decrypted, or the failure is a declared one, or a text of its header
has no encoding; and it is known which text that is. -/
theorem decryptBy_fails_of_decode {bs : Bytes} {c : Container} (reads : decode bs = .ok c)
    (w : Workers) (deriver : KeyDeriver) :
    (FailsWith (fun failure ↦ Declared failure ∨ failure = .unencodable)
        (c.decryptBy w deriver) ∧
      (c.decryptBy w deriver = .error .unencodable ↔ Garbled deriver c ∨
        Merkle.root c.chunkHashes = c.merkleRoot ∧ c.plainHash.isScalar = false ∧
          ∃ key pieces, deriver.fileKey c.fileId = .ok key ∧
            List.Forall₂ (Opens key) c.chunks pieces ∧
            (pieces.flatten.length : Int) = c.plainSize)) ∧
    ∀ place < c.chunks.length,
      FailsWith (fun failure ↦ Declared failure ∨ failure = .unencodable)
        (c.decryptChunk deriver (place : Nat)) ∧
      (c.decryptChunk deriver (place : Nat) = .error .unencodable ↔ Garbled deriver c) := by
  obtain ⟨accepted, -⟩ := decode_eq_ok reads
  have placed := accepted.sound.placed
  rw [decryptBy_eq]
  refine ⟨⟨decrypt_fails deriver placed, decrypt_eq_unencodable_iff placed⟩, fun place inside ↦ ?_⟩
  have found := List.getElem?_eq_getElem inside
  exact ⟨decryptChunk_fails deriver found, decryptChunk_eq_unencodable_iff found⟩

/-- The header of a container without chunks whose root is half of a surrogate pair. -/
def garbledHeader : Text :=
  "\x7b\"chunkSize\":1,\"chunks\":[],\"createdAt\":\"1970-01-01T00:00:00+00:00\"," ++
    "\"fileId\":\"f\",\"merkleRoot\":\"\\ud800\",\"originalHash\":\"\",\"originalSize\":0\x7d"

def garbled : Container :=
  { blank with merkleRoot := [CodePoint.ofNat 0xD800] }

theorem decode_garbled : decode (bare garbledHeader) = .ok garbled := by
  decide +kernel

theorem decryptBy_fails_of_decode_garbled : decode (bare garbledHeader) = .ok garbled ∧
    garbled.decryptBy .backward ⟨.given none, []⟩ = .error .unencodable := by
  obtain ⟨⟨-, fails⟩, -⟩ := decryptBy_fails_of_decode decode_garbled .backward ⟨.given none, []⟩
  exact ⟨decode_garbled, fails.2 (.inl (.inl ⟨_, .head _, by decide⟩))⟩

theorem not_decryptBy_declared : ¬ ∀ (bs : Bytes) (c : Container) (w : Workers)
    (deriver : KeyDeriver), decode bs = .ok c → FailsWith Declared (c.decryptBy w deriver) ∧
      ∀ place < c.chunks.length, FailsWith Declared (c.decryptChunk deriver (place : Nat)) := by
  intro declared
  obtain ⟨whole, -⟩ := declared _ _ .backward ⟨.given none, []⟩ decode_garbled
  rw [decryptBy_eq] at whole
  have placed : firstMoved? 0 garbled.chunks = none := rfl
  exact ne_unencodable whole ((decrypt_eq_unencodable_iff placed).2
    (.inl (.inl ⟨_, .head _, by decide⟩)))

end Container

end ShardVault
