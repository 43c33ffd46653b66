import ShardVault.Proofs.Container.Workers

namespace ShardVault

/-- What opens to a text under a nonce is that text hidden under the nonce, whatever the tag. -/
theorem Gcm.hide_of_decrypt? {key nonce associated hidden tag text : Bytes}
    (h : Gcm.decrypt? key nonce associated hidden tag = some text) :
    Gcm.hide (Aes.expand key) nonce text = hidden := by
  simp only [Gcm.decrypt?] at h
  split at h
  · obtain rfl := Option.some.inj h
    exact Gcm.hide_hide _ nonce hidden
  · cases h

theorem SealedBlock.length_of_decrypt {key : CipherKey} {associated text : Bytes}
    {block : SealedBlock} (h : block.decrypt key associated = .ok text) :
    text.length = block.ciphertext.length := by
  obtain ⟨-, -, opened⟩ := decrypt_eq_ok_iff.1 h
  rw [← Gcm.hide_of_decrypt? opened, Gcm.length_hide]

namespace Container

def withBlocks (c : Container) (blocks : Nat → SealedBlock) : Container :=
  { c with chunks := c.chunks.mapIdx fun place chunk ↦ { chunk with block := blocks place } }

/-- A seal or a hash of what is opened tells that it is not what was sealed. -/
def IsRefused (result : Except Failure Bytes) : Prop :=
  ∃ failure, result = .error failure ∧
    (failure.family? = some .authentication ∨ failure.family? = some .integrity)

variable {c : Container} {blocks : Nat → SealedBlock} {block : SealedBlock} {key : CipherKey}
  {chunk : Chunk} {pieces opened : List Bytes} {place : Nat} {piece found : Bytes}

theorem getElem?_withBlocks : (c.withBlocks blocks).chunks[place]? =
    c.chunks[place]?.map fun chunk ↦ { chunk with block := blocks place } := by
  rw [withBlocks, List.getElem?_mapIdx]

theorem chunkHashes_withBlocks : (c.withBlocks blocks).chunkHashes = c.chunkHashes := by
  apply List.ext_getElem?
  intro place
  rw [chunkHashes, chunkHashes, List.getElem?_map, List.getElem?_map, getElem?_withBlocks,
    Option.map_map]
  rfl

theorem IsScalar.withBlocks (h : c.IsScalar) (blocks : Nat → SealedBlock) :
    (c.withBlocks blocks).IsScalar where
  fileId := h.fileId
  merkleRoot := h.merkleRoot
  plainHash := h.plainHash
  hash := List.forall_mem_map.1 (chunkHashes_withBlocks (c := c) ▸ h.leaves)

theorem Opens.decrypt_eq (h : Opens key chunk piece) : chunk.block.decrypt key [] = .ok piece :=
  SealedBlock.decrypt_eq_ok_iff.2 ⟨h.nonce, h.tag, h.text⟩

theorem Opens.ciphertext_eq (h : Opens key chunk piece)
    (hw : Opens key { chunk with block } piece) (nonce : block.nonce = chunk.block.nonce) :
    block.ciphertext = chunk.block.ciphertext := by
  rw [← Gcm.hide_of_decrypt? hw.text, ← Gcm.hide_of_decrypt? h.text]
  simp only [nonce]

theorem eq_of_opens_withBlocks (hc : List.Forall₂ (Opens key) c.chunks pieces)
    (hw : List.Forall₂ (Opens key) (c.withBlocks blocks).chunks opened)
    (distinct : ∀ (place : Nat) (piece found : Bytes), pieces[place]? = some piece →
      (blocks place).decrypt key [] = .ok found → ¬ Sha256.Collision found piece) :
    opened = pieces := by
  obtain ⟨count, each⟩ := forall₂_iff_getElem?.1 hc
  obtain ⟨count', each'⟩ := forall₂_iff_getElem?.1 hw
  have size : opened.length = pieces.length := by
    rw [← count, ← count', withBlocks, List.length_mapIdx]
  apply List.ext_getElem size
  intro place ho hp
  obtain ⟨chunk, hchunk, opens⟩ := each place pieces[place] (List.getElem?_eq_getElem hp)
  obtain ⟨moved, hmoved, opens'⟩ := each' place opened[place] (List.getElem?_eq_getElem ho)
  rw [getElem?_withBlocks, hchunk] at hmoved
  obtain rfl := Option.some.inj hmoved
  -- Both pieces have the hash of the chunk.
  apply (Sha256.eq_or_collision (opens'.hash.trans opens.hash.symm)).resolve_right
  exact distinct place _ _ (List.getElem?_eq_getElem hp) opens'.decrypt_eq

namespace Encryptor

variable {e : Encryptor} {reader : KeyDeriver} {data : Bytes} {fileId : Text}
  {chunks : List Chunk} {createdAt : DateTime}

/-- A file that comes out of other blocks is the one that was sealed, and the blocks hide the same
bytes wherever they have the same nonce. -/
theorem eq_of_decrypt_withBlocks (reads : reader.fileKey fileId = .ok key)
    (hs : Sealed key 0 (ShardVault.chunks e.chunkSize data) chunks)
    (distinct : ∀ (place : Nat) (piece found : Bytes),
      (ShardVault.chunks e.chunkSize data)[place]? = some piece →
      (blocks place).decrypt key [] = .ok found → ¬ Sha256.Collision found piece)
    (h : ((e.assemble data fileId chunks createdAt).withBlocks blocks).decrypt reader =
      .ok found) :
    found = data ∧ ∀ (place : Nat) (chunk : Chunk), chunks[place]? = some chunk →
      (blocks place).nonce = chunk.block.nonce →
      (blocks place).ciphertext = chunk.block.ciphertext := by
  obtain ⟨-, -, key', opened, hkey', opens', rfl, -⟩ := decrypt_eq_ok_iff.1 h
  obtain rfl := Except.ok.inj (reads.symm.trans hkey')
  obtain rfl := eq_of_opens_withBlocks (c := e.assemble data fileId chunks createdAt) hs.opens
    opens' distinct
  refine ⟨chunks_flatten e.positive data, fun place chunk hc nonce ↦ ?_⟩
  obtain ⟨piece, hp, opens⟩ := (forall₂_iff_getElem?.1 hs.opens.flip).2 place chunk hc
  obtain ⟨moved, hm, opensMoved⟩ := (forall₂_iff_getElem?.1 opens').2 place piece hp
  have sealed : (e.assemble data fileId chunks createdAt).chunks[place]? = some chunk := hc
  rw [getElem?_withBlocks, sealed] at hm
  obtain rfl := Option.some.inj hm
  exact opens.ciphertext_eq opensMoved nonce

/-- Whatever blocks stand in a container that is opened with the key it was sealed with, what comes
out is the file that was sealed, or it is refused; and it is refused if a block hides other bytes
under the nonce of the one that was there. -/
theorem decryptBy_withBlocks (e : Encryptor) (reader : KeyDeriver) (w w' : Workers) (data : Bytes)
    (fileId : Text) (nonces left : NonceSupply) (createdAt : DateTime) (c : Container)
    (blocks : Nat → SealedBlock)
    (encrypts : e.encryptBy w data fileId nonces createdAt = .ok (c, left))
    (master : reader.source.master = e.deriver.source.master)
    (info : reader.info = e.deriver.info)
    (distinct : ∀ key, reader.fileKey fileId = .ok key →
      ∀ (place : Nat) (piece found : Bytes),
        (ShardVault.chunks e.chunkSize data)[place]? = some piece →
        (blocks place).decrypt key [] = .ok found → ¬ Sha256.Collision found piece) :
    ((c.withBlocks blocks).decryptBy w' reader = .ok data ∨
        IsRefused ((c.withBlocks blocks).decryptBy w' reader)) ∧
      ∀ (place : Nat) (chunk : Chunk), c.chunks[place]? = some chunk →
        (blocks place).nonce = chunk.block.nonce →
        (blocks place).ciphertext ≠ chunk.block.ciphertext →
        IsRefused ((c.withBlocks blocks).decryptBy w' reader) := by
  obtain ⟨key, chunks, hkey, hs, rfl⟩ := encryptBy_eq_ok encrypts
  have reads := (KeyDeriver.fileKey_congr master info fileId).trans (keyFor_eq_ok_iff.1 hkey).2
  obtain ⟨-, -, -, scalar, -⟩ := KeyDeriver.fileKey_eq_ok_iff.1 reads
  rw [decryptBy_eq]
  rcases result : ((e.assemble data fileId chunks createdAt).withBlocks blocks).decrypt reader
    with failure | found
  · have texts := (isScalar_assemble createdAt scalar hs).withBlocks blocks
    have fails := texts.decrypt_fails reads
    have refused : IsRefused (.error failure) := ⟨failure, rfl, fails.of_eq failure result⟩
    exact ⟨.inr refused, fun _ _ _ _ _ ↦ refused⟩
  · obtain ⟨rfl, same⟩ := eq_of_decrypt_withBlocks reads hs (distinct key reads) result
    refine ⟨.inl rfl, fun place chunk hc nonce differs ↦ ?_⟩
    exact absurd (same place chunk hc nonce) differs

theorem decryptBy_withBlocks_cut : ∃ (e : Encryptor) (c : Container) (left : NonceSupply)
    (chunk : Chunk), e.encryptBy .backward [7] "f" (.counting 0 true) .epoch = .ok (c, left) ∧
      c.chunks = [chunk] ∧
      IsRefused ((c.withBlocks fun _ ↦ { chunk.block with ciphertext := [] }).decryptBy .backward
        e.deriver) := by
  obtain ⟨key, chunks, left, hkey, hs, encrypts⟩ := exists_encryptBy_least [7] (by decide)
  have cut : ShardVault.chunks least.chunkSize ([7] : Bytes) = [[7]] := rfl
  have opens := hs.opens
  rw [cut] at opens
  obtain ⟨chunk, rfl⟩ := List.length_eq_one_iff.1 opens.length_eq
  obtain ⟨opens, -⟩ := List.forall₂_cons.1 opens
  have differs : [] ≠ chunk.block.ciphertext := by
    intro empty
    have length := SealedBlock.length_of_decrypt opens.decrypt_eq
    rw [← empty] at length
    cases length
  -- Only the empty piece hides no bytes, and it has another hash.
  have distinct : ∀ key, least.deriver.fileKey "f" = .ok key →
      ∀ (place : Nat) (piece found : Bytes),
        (ShardVault.chunks least.chunkSize [7])[place]? = some piece →
        SealedBlock.decrypt key [] { chunk.block with ciphertext := [] } = .ok found →
        ¬ Sha256.Collision found piece := by
    intro key _ place piece found hp hf
    obtain rfl := List.length_eq_zero_iff.1 (SealedBlock.length_of_decrypt hf)
    rw [cut] at hp
    obtain rfl := List.mem_singleton.1 (List.mem_of_getElem? hp)
    rintro ⟨-, same⟩
    exact absurd same (by decide +kernel)
  obtain ⟨-, refuses⟩ := decryptBy_withBlocks least least.deriver .backward .backward [7] "f"
    (.counting 0 true) left .epoch _ (fun _ ↦ { chunk.block with ciphertext := [] }) encrypts rfl
    rfl distinct
  exact ⟨least, _, left, chunk, encrypts, rfl, refuses 0 chunk rfl rfl differs⟩

end Encryptor

end Container

end ShardVault
