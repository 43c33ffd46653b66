import ShardVault.Container.Decrypt
import ShardVault.Proofs.Digest.Merkle

namespace ShardVault

theorem deriveKey_eq_ok_iff {master info : Bytes} {id : Text} {key : CipherKey} :
    deriveKey master id info = .ok key ↔
      id.isScalar = true ∧ key.bytes = Hkdf.derive master (Utf8.encodeAll id) info := by
  obtain ⟨bytes, size⟩ := key
  unfold deriveKey Text.encode Utf8.encode
  cases id.isScalar <;> simp [eq_comm]

theorem exists_deriveKey (master info : Bytes) {id : Text} (h : id.isScalar = true) :
    ∃ key, deriveKey master id info = .ok key :=
  ⟨⟨_, Hkdf.length_derive _ _ _⟩, deriveKey_eq_ok_iff.2 ⟨h, rfl⟩⟩

theorem KeyDeriver.fileKey_eq_ok_iff {deriver : KeyDeriver} {fileId : Text} {key : CipherKey} :
    deriver.fileKey fileId = .ok key ↔
      ∃ master : Bytes, deriver.source.master = .ok (some master) ∧ master.length = 32 ∧
        fileId.isScalar = true ∧
        key.bytes = Hkdf.derive master (Utf8.encodeAll fileId) deriver.info := by
  constructor
  · intro h
    obtain ⟨found, hmaster, h⟩ := bind_eq_ok.1 h
    cases found with
    | none => cases h
    | some master =>
      simp only [ne_eq] at h
      split at h
      · cases h
      next size =>
      exact ⟨master, hmaster, not_not.1 size, deriveKey_eq_ok_iff.1 h⟩
  · rintro ⟨master, hmaster, size, scalar, hkey⟩
    refine bind_eq_ok.2 ⟨some master, hmaster, ?_⟩
    simp only [size, ne_eq, not_true_eq_false, if_false]
    exact deriveKey_eq_ok_iff.2 ⟨scalar, hkey⟩

theorem KeyDeriver.exists_fileKey {deriver : KeyDeriver} {master : CipherKey} {fileId : Text}
    (hmaster : deriver.source.master = .ok (some master.bytes)) (hid : fileId.isScalar = true) :
    ∃ key, deriver.fileKey fileId = .ok key :=
  ⟨⟨_, Hkdf.length_derive _ _ _⟩,
    fileKey_eq_ok_iff.2 ⟨master.bytes, hmaster, master.size, hid, rfl⟩⟩

theorem KeyDeriver.fileKey_congr {deriver reader : KeyDeriver}
    (hmaster : reader.source.master = deriver.source.master) (hinfo : reader.info = deriver.info)
    (fileId : Text) : reader.fileKey fileId = deriver.fileKey fileId := by
  simp only [fileKey, hmaster, hinfo]

theorem KeySource.master_fails (source : KeySource) :
    FailsWith (fun failure ↦ ∃ fault, failure = .keyUnavailable fault) source.master := by
  cases source with
  | fixed key => exact .ok _
  | given key => exact .ok _
  | environment names name =>
    simp only [master]
    split
    · exact .ok _
    · split
      · exact .ok _
      · exact .error ⟨_, rfl⟩

theorem KeyDeriver.fileKey_fails (deriver : KeyDeriver) {fileId : Text}
    (hid : fileId.isScalar = true) :
    FailsWith (fun failure ↦ ∃ fault, failure = .keyUnavailable fault)
      (deriver.fileKey fileId) := by
  refine deriver.source.master_fails.bind fun found _ ↦ ?_
  cases found with
  | none => exact .error ⟨.absent, rfl⟩
  | some master =>
    simp only [deriveKey, Text.encode_eq_ok_iff.2 ⟨hid, rfl⟩]
    split
    · exact .error ⟨.wrongSize, rfl⟩
    · exact .ok _

theorem SealedBlock.decrypt_eq_ok_iff {key : CipherKey} {associated text : Bytes}
    {block : SealedBlock} :
    block.decrypt key associated = .ok text ↔ block.nonce.length = 12 ∧ block.tag.length = 16 ∧
      Gcm.decrypt? key.bytes block.nonce associated block.ciphertext block.tag = some text := by
  unfold decrypt
  split
  · next malformed =>
    constructor
    · exact nofun
    · rintro ⟨nonce, tag, -⟩
      exact absurd malformed (by simp [nonce, tag])
  · next formed =>
    obtain ⟨nonce, tag⟩ := not_or.1 formed
    rw [not_not] at nonce tag
    split <;> simp_all

theorem SealedBlock.decrypt_fails (key : CipherKey) (associated : Bytes) (block : SealedBlock) :
    FailsWith (fun failure ↦ ∃ fault, failure = .authentication fault)
      (block.decrypt key associated) := by
  unfold decrypt
  split
  · exact .error ⟨.malformed, rfl⟩
  · split
    · exact .ok _
    · exact .error ⟨.mismatch, rfl⟩

namespace Container

/-- A chunk opens to a piece, which has the hash of the chunk. -/
structure Opens (key : CipherKey) (chunk : Chunk) (piece : Bytes) : Prop where
  nonce : chunk.block.nonce.length = 12
  tag : chunk.block.tag.length = 16
  text : Gcm.decrypt? key.bytes chunk.block.nonce [] chunk.block.ciphertext chunk.block.tag =
    some piece
  hash : Sha256.hex piece = chunk.hash

variable {deriver : KeyDeriver} {c : Container} {key : CipherKey} {chunk : Chunk}
  {chunks : List Chunk} {piece data : Bytes}

theorem openChunk_eq_ok_iff : openChunk key chunk = .ok piece ↔ Opens key chunk piece := by
  constructor
  · intro h
    obtain ⟨text, htext, h⟩ := bind_eq_ok.1 h
    obtain ⟨same, hsame, h⟩ := bind_eq_ok.1 h
    cases same with
    | false => cases h
    | true =>
      obtain rfl := Except.ok.inj h
      obtain ⟨nonce, tag, opened⟩ := SealedBlock.decrypt_eq_ok_iff.1 htext
      exact ⟨nonce, tag, opened, Text.eq_of_sameDigest hsame⟩
  · rintro ⟨nonce, tag, opened, hash⟩
    have same := Text.sameDigest_self (Sha256.isScalar_hex piece)
    refine bind_eq_ok.2 ⟨piece, SealedBlock.decrypt_eq_ok_iff.2 ⟨nonce, tag, opened⟩, ?_⟩
    rw [← hash]
    exact bind_eq_ok.2 ⟨true, same, rfl⟩

theorem openChunk_fails (key : CipherKey) (h : chunk.hash.isScalar = true) :
    FailsWith (fun failure ↦ (∃ fault, failure = .authentication fault) ∨
      failure = .integrity (.chunkHash chunk.index)) (openChunk key chunk) := by
  refine ((chunk.block.decrypt_fails key []).mono fun _ ↦ .inl).bind fun text _ ↦ ?_
  rw [Text.sameDigest_eq (Sha256.isScalar_hex text) h, ok_bind]
  split
  · exact .ok _
  · exact .error (.inr rfl)

theorem openChunks_eq (key : CipherKey) (done : List Bytes) (chunks : List Chunk) :
    openChunks key done chunks = (chunks.mapM (openChunk key)).map (done.reverse ++ ·) := by
  induction chunks generalizing done with
  | nil => simp [openChunks, pure, Except.pure]
  | cons chunk chunks ih =>
    rw [openChunks, List.mapM_cons]
    rcases openChunk key chunk with failure | piece
    · rfl
    · simp only [ih, ok_bind, List.reverse_cons, List.append_assoc, List.singleton_append]
      rcases chunks.mapM (openChunk key) with failure | pieces <;> rfl

theorem openChunks_eq_ok_iff {pieces : List Bytes} :
    openChunks key [] chunks = .ok pieces ↔ List.Forall₂ (Opens key) chunks pieces := by
  rw [openChunks_eq, map_eq_ok]
  simp only [List.reverse_nil, List.nil_append, exists_eq_right, mapM_eq_ok_iff,
    openChunk_eq_ok_iff]

theorem index_of_placed {position place : Nat}
    (h : firstMoved? position chunks = none) (hc : chunks[place]? = some chunk) :
    chunk.index = (position + place : Nat) := by
  induction chunks generalizing position place with
  | nil => cases hc
  | cons first chunks ih =>
    rw [firstMoved?] at h
    split at h
    swap
    · cases h
    next placed =>
    cases place with
    | zero => exact Option.some.inj hc ▸ placed
    | succ place =>
      rw [List.getElem?_cons_succ] at hc
      rw [ih h hc, Nat.succ_add_eq_add_succ]

theorem firstMoved?_eq_none_iff {position : Nat} : firstMoved? position chunks = none ↔
    ∀ (place : Nat) (chunk : Chunk), chunks[place]? = some chunk →
      chunk.index = (position + place : Nat) := by
  refine ⟨fun h place chunk hc ↦ index_of_placed h hc, fun h ↦ ?_⟩
  induction chunks generalizing position with
  | nil => rfl
  | cons first chunks ih =>
    have here : first.index = position := h 0 first rfl
    rw [firstMoved?, if_pos here]
    apply ih
    intro place chunk hc
    rw [h (place + 1) chunk hc, Nat.succ_add_eq_add_succ]

theorem placed_iff : firstMoved? 0 chunks = none ↔
    ∀ (place : Nat) (chunk : Chunk), chunks[place]? = some chunk → chunk.index = place := by
  simp only [firstMoved?_eq_none_iff, Nat.zero_add]

/-- What was opened has the hash of its chunk, so that the hashes of the chunks can be encoded. -/
theorem isScalar_of_opens {pieces : List Bytes} (h : List.Forall₂ (Opens key) chunks pieces) :
    ∀ leaf ∈ chunks.map (·.hash), leaf.isScalar = true := by
  induction h with
  | nil => exact List.forall_mem_nil _
  | cons first others ih =>
    refine List.forall_mem_cons.2 ⟨?_, ih⟩
    simp only [← first.hash, Sha256.isScalar_hex]

theorem decrypt_eq_ok_iff : c.decrypt deriver = .ok data ↔
    firstMoved? 0 c.chunks = none ∧ Merkle.root c.chunkHashes = c.merkleRoot ∧
      ∃ key pieces, deriver.fileKey c.fileId = .ok key ∧
        List.Forall₂ (Opens key) c.chunks pieces ∧ data = pieces.flatten ∧
        (data.length : Int) = c.plainSize ∧ Sha256.hex data = c.plainHash := by
  constructor
  · intro h
    unfold decrypt at h
    split at h
    · cases h
    next placed =>
    obtain ⟨root, hroot, h⟩ := bind_eq_ok.1 h
    obtain ⟨sameRoot, hsameRoot, h⟩ := bind_eq_ok.1 h
    cases sameRoot with
    | false => cases h
    | true =>
    obtain ⟨key, hkey, h⟩ := bind_eq_ok.1 h
    obtain ⟨pieces, hpieces, h⟩ := bind_eq_ok.1 h
    simp only [ne_eq] at h
    split at h
    · cases h
    next size =>
    obtain ⟨sameHash, hsameHash, h⟩ := bind_eq_ok.1 h
    cases sameHash with
    | false => cases h
    | true =>
    obtain rfl := Except.ok.inj h
    exact ⟨placed, Merkle.eq_root_of_rootOf hroot ▸ Text.eq_of_sameDigest hsameRoot, key, pieces,
      hkey, openChunks_eq_ok_iff.1 hpieces, rfl, not_not.1 size, Text.eq_of_sameDigest hsameHash⟩
  · rintro ⟨placed, root, key, pieces, hkey, opens, rfl, size, hash⟩
    have leaves := isScalar_of_opens opens
    have sameRoot := Text.sameDigest_self (Merkle.isScalar_root leaves)
    have sameHash := Text.sameDigest_self (Sha256.isScalar_hex pieces.flatten)
    rw [decrypt, placed]
    simp only [chunkHashes] at root ⊢
    simp only [Merkle.rootOf_eq leaves, ok_bind, ← root, sameRoot, hkey,
      openChunks_eq_ok_iff.2 opens, size, ← hash, sameHash, Bool.not_true, Bool.false_eq_true,
      if_false, ne_eq, not_true_eq_false]

/-- The whole of a container opened under a key, once its root is checked. -/
def openWhole (key : CipherKey) (c : Container) : Except Failure Bytes := do
  let pieces ← openChunks key [] c.chunks
  let data := pieces.flatten
  if (data.length : Int) ≠ c.plainSize then violated .fileSize
  else if !(← Text.sameDigest (Sha256.hex data) c.plainHash) then violated .fileHash
  else .ok data

/-- The key of a container, once its root is that of its chunks. The comparison encodes all of these
texts; a root that differs is reported as a fault. -/
def unlock (deriver : KeyDeriver) (c : Container) (fault : IntegrityFault) :
    Except Failure CipherKey := do
  let same ← Text.guarded (c.merkleRoot :: c.chunkHashes)
    (Merkle.root c.chunkHashes == c.merkleRoot)
  if same then deriver.fileKey c.fileId else violated fault

theorem unlock_bind {α : Type} (deriver : KeyDeriver) (c : Container) (fault : IntegrityFault)
    (next : CipherKey → Except Failure α) :
    (unlock deriver c fault >>= next) =
      (Text.guarded (c.merkleRoot :: c.chunkHashes)
        (Merkle.root c.chunkHashes == c.merkleRoot) >>= fun same ↦
        if same then deriver.fileKey c.fileId >>= next else violated fault) := by
  rw [unlock, bind_assoc]
  refine bind_congr fun same ↦ ?_
  cases same <;> rfl

theorem decrypt_eq_unlock (deriver : KeyDeriver) (placed : firstMoved? 0 c.chunks = none) :
    c.decrypt deriver = unlock deriver c .rootMismatch >>= fun key ↦ c.openWhole key := by
  rw [unlock_bind, ← Merkle.rootOf_bind_sameDigest, bind_assoc, decrypt, placed]
  refine bind_congr fun root ↦ bind_congr fun same ↦ ?_
  cases same <;> rfl

theorem decryptChunk_eq_unlock (deriver : KeyDeriver) {place : Nat}
    (found : c.chunks[place]? = some chunk) :
    c.decryptChunk deriver place =
      unlock deriver c (.chunkUncovered place) >>= fun key ↦ openChunk key chunk := by
  have leaf : c.chunkHashes[place]? = some chunk.hash := by
    rw [chunkHashes, List.getElem?_map, found]
    rfl
  have inside : ¬ (place : Int) < 0 := by omega
  rw [unlock_bind, ← Merkle.pathOf_bind_verify c.merkleRoot leaf, bind_assoc, decryptChunk,
    if_neg inside, Int.toNat_natCast, found]

structure IsScalar (c : Container) : Prop where
  fileId : c.fileId.isScalar = true
  merkleRoot : c.merkleRoot.isScalar = true
  plainHash : c.plainHash.isScalar = true
  hash : ∀ chunk ∈ c.chunks, chunk.hash.isScalar = true

namespace IsScalar

theorem leaves (h : c.IsScalar) : ∀ leaf ∈ c.chunkHashes, leaf.isScalar = true :=
  List.forall_mem_map.2 h.hash

theorem unlock_eq (h : c.IsScalar) (deriver : KeyDeriver) (fault : IntegrityFault) :
    unlock deriver c fault =
      if Merkle.root c.chunkHashes = c.merkleRoot then deriver.fileKey c.fileId
      else violated fault := by
  have scalars := List.all_eq_true.2 (List.forall_mem_cons.2 ⟨h.merkleRoot, h.leaves⟩)
  simp only [unlock, Text.guarded, scalars, if_true, ok_bind, beq_iff_eq]

theorem decrypt_eq (h : c.IsScalar) (deriver : KeyDeriver) :
    c.decrypt deriver = match firstMoved? 0 c.chunks with
      | some (index, position) => violated (.chunkMoved index position)
      | none =>
        if Merkle.root c.chunkHashes = c.merkleRoot then
          deriver.fileKey c.fileId >>= fun key ↦ c.openWhole key
        else violated .rootMismatch := by
  cases placed : firstMoved? 0 c.chunks with
  | some moved => rw [decrypt, placed]
  | none =>
    rw [decrypt_eq_unlock deriver placed, h.unlock_eq]
    split <;> rfl

theorem decryptChunk_eq (h : c.IsScalar) (deriver : KeyDeriver) {place : Nat}
    (found : c.chunks[place]? = some chunk) :
    c.decryptChunk deriver place =
      if Merkle.root c.chunkHashes = c.merkleRoot then
        deriver.fileKey c.fileId >>= fun key ↦ openChunk key chunk
      else violated (.chunkUncovered place) := by
  rw [decryptChunk_eq_unlock deriver found, h.unlock_eq]
  split <;> rfl

theorem openWhole_fails (h : c.IsScalar) (key : CipherKey) :
    FailsWith (fun failure ↦ failure ≠ .integrity .rootMismatch ∧
      (failure.family? = some .authentication ∨ failure.family? = some .integrity))
      (c.openWhole key) := by
  refine FailsWith.bind ?_ fun pieces _ ↦ ?_
  · rw [openChunks_eq]
    refine (FailsWith.mapM fun chunk hc ↦ ?_).map _
    apply (openChunk_fails key (h.hash chunk hc)).mono
    rintro failure (⟨fault, rfl⟩ | rfl)
    · exact ⟨nofun, .inl rfl⟩
    · exact ⟨nofun, .inr rfl⟩
  · have hash := Sha256.isScalar_hex pieces.flatten
    simp only [Text.sameDigest_eq hash h.plainHash, ok_bind]
    apply FailsWith.ite (.error ⟨nofun, .inr rfl⟩)
    exact .ite (.error ⟨nofun, .inr rfl⟩) (.ok _)

theorem decrypt_fails (h : c.IsScalar) (hkey : deriver.fileKey c.fileId = .ok key) :
    FailsWith (fun failure ↦ failure.family? = some .authentication ∨
      failure.family? = some .integrity) (c.decrypt deriver) := by
  rw [h.decrypt_eq, hkey]
  split
  · exact .error (.inr rfl)
  · exact .ite ((h.openWhole_fails key).mono fun _ ↦ And.right) (.error (.inr rfl))

end IsScalar

end Container

end ShardVault
