import ShardVault.Proofs.Container.Recovery

namespace ShardVault.Container

/-- What the chunk at a place says of the piece that it seals. -/
structure Seals (chunk : Chunk) (place : Nat) (piece : Bytes) : Prop where
  index : chunk.index = place
  nonce : chunk.block.nonce.length = 12
  tag : chunk.block.tag.length = 16
  ciphertext : chunk.block.ciphertext.length = piece.length
  hash : chunk.hash = Sha256.hex piece

variable {e : Encryptor} {key : CipherKey} {data bs : Bytes} {fileId : Text} {chunks : List Chunk}
  {createdAt : DateTime} {c : Container}

theorem seals_encrypt (key : CipherKey) (nonce : Nonce) (place : Nat) (piece : Bytes) :
    Seals ⟨place, SealedBlock.encrypt key nonce [] piece, Sha256.hex piece⟩ place piece where
  index := rfl
  nonce := nonce.size
  tag := Gcm.length_tag _ _ _ _
  ciphertext := Gcm.length_hide _ _ _
  hash := rfl

namespace Sealed

theorem seals {position : Nat} {pieces : List Bytes} (h : Sealed key position pieces chunks)
    {place : Nat} {chunk : Chunk} (hc : chunks[place]? = some chunk) :
    ∃ piece, pieces[place]? = some piece ∧ Seals chunk (position + place) piece := by
  induction h generalizing place with
  | nil => cases hc
  | @cons position pieces chunks nonce piece rest ih =>
    cases place with
    | zero =>
      obtain rfl := Option.some.inj hc
      exact ⟨piece, rfl, seals_encrypt key nonce position piece⟩
    | succ place =>
      obtain ⟨later, found, seals⟩ := ih hc
      rw [Nat.add_assoc, Nat.add_comm 1] at seals
      exact ⟨later, found, seals⟩

theorem length_eq {position : Nat} {pieces : List Bytes} (h : Sealed key position pieces chunks) :
    chunks.length = pieces.length := by
  have hashes := congrArg List.length h.hashes
  rwa [List.length_map, List.length_map] at hashes

end Sealed

namespace Encryptor

def piece (e : Encryptor) (data : Bytes) (place : Nat) : Bytes :=
  (data.drop (place * e.chunkSize)).take e.chunkSize

theorem chunks_eq_map_piece (e : Encryptor) (data : Bytes) :
    ShardVault.chunks e.chunkSize data =
      (List.range ((data.length + e.chunkSize - 1) / e.chunkSize)).map (e.piece data) := by
  apply List.ext_getElem?
  intro place
  rw [← length_chunks e.positive, List.getElem?_map, getElem?_chunks e.positive]
  split
  · next inside =>
    rw [List.getElem?_range ((lt_length_chunks_iff e.positive).2 inside)]
    rfl
  · next outside =>
    rw [List.getElem?_eq_none]
    · rfl
    · rw [List.length_range]
      exact Nat.not_lt.1 fun within ↦ outside ((lt_length_chunks_iff e.positive).1 within)

theorem length_piece {place : Nat} (inside : place * e.chunkSize < data.length) :
    0 < (e.piece data place).length ∧
      ((place + 1) * e.chunkSize < data.length → (e.piece data place).length = e.chunkSize) := by
  have positive := e.positive
  rw [piece, List.length_take, List.length_drop, Nat.add_one_mul]
  omega

/-- The shape of the container of a file. All pieces but the last are of full size. -/
structure Shapes (e : Encryptor) (data : Bytes) (fileId : Text) (c : Container) : Prop where
  fileId : c.fileId = fileId
  count : c.chunks.length = (data.length + e.chunkSize - 1) / e.chunkSize
  chunk : ∀ place chunk, c.chunks[place]? = some chunk → Seals chunk place (e.piece data place)
  nonempty : ∀ place < c.chunks.length, 0 < (e.piece data place).length
  full : ∀ place, place + 1 < c.chunks.length → (e.piece data place).length = e.chunkSize
  merkleRoot : c.merkleRoot =
    Merkle.root ((List.range c.chunks.length).map fun place ↦ Sha256.hex (e.piece data place))
  plainHash : c.plainHash = Sha256.hex data
  plainSize : c.plainSize = data.length
  chunkSize : c.chunkSize = e.chunkSize

theorem shapes_assemble (h : Sealed key 0 (ShardVault.chunks e.chunkSize data) chunks) :
    e.Shapes data fileId (e.assemble data fileId chunks createdAt) := by
  have count : chunks.length = (data.length + e.chunkSize - 1) / e.chunkSize :=
    h.length_eq.trans (length_chunks e.positive)
  have within {place : Nat} (hp : place < chunks.length) : place * e.chunkSize < data.length :=
    (lt_length_chunks_iff e.positive).1 (h.length_eq ▸ hp)
  refine ⟨rfl, count, fun place chunk hc ↦ ?_, fun place hp ↦ (length_piece (within hp)).1,
    fun place hp ↦ (length_piece (within (Nat.lt_of_succ_lt hp))).2 (within hp), ?_, rfl, rfl, rfl⟩
  · obtain ⟨piece, found, seals⟩ := h.seals hc
    rw [getElem?_chunks e.positive] at found
    split at found
    · obtain rfl := Option.some.inj found
      rwa [Nat.zero_add] at seals
    · cases found
  · rw [assemble, h.hashes, chunks_eq_map_piece, List.map_map, count]
    rfl

end Encryptor

theorem length_of_encode (h : c.encode = .ok bs) : c.headerBytes.length < 0x100000000 ∧
    bs.length = 10 + c.headerBytes.length + (c.chunks.flatMap (·.block.encode)).length := by
  obtain ⟨t, spelled, written, bytes, fits, rfl⟩ := encode_eq_ok h
  obtain ⟨-, rfl⟩ := Json.encode_eq_ok_iff.1 written
  obtain ⟨-, rfl⟩ := Text.encode_eq_ok_iff.1 bytes
  refine ⟨fits, ?_⟩
  rw [List.length_append, List.length_append, length_preamble, headerBytes, Nat.add_assoc]

theorem sum_pieces (pieces : List Bytes) : (pieces.map fun piece ↦ 36 + piece.length).sum =
    36 * pieces.length + pieces.flatten.length := by
  induction pieces with
  | nil => rfl
  | cons piece pieces ih =>
    rw [List.map_cons, List.sum_cons, ih, List.length_cons, List.flatten_cons, List.length_append]
    omega

theorem Sealed.length_flatMap_encode
    (h : Sealed key 0 (ShardVault.chunks e.chunkSize data) chunks) :
    (chunks.flatMap (·.block.encode)).length = 36 * chunks.length + data.length := by
  rw [h.length_blocks, sum_pieces, chunks_flatten e.positive, h.length_eq]

namespace Encryptor

theorem containerSize_le (e : Encryptor) (data : Bytes) (fileId : Text) (createdAt : DateTime) :
    e.containerSize data fileId createdAt ≤
      10 + (e.headerBytes data fileId createdAt).length + 37 * data.length := by
  have pieces : (ShardVault.chunks e.chunkSize data).length ≤ data.length :=
    length_chunksFrom_le data.length data
  rw [containerSize, sum_pieces, chunks_flatten e.positive]
  omega

/-- The container of a file of at most fifty thousand bytes has less than `2 ^ 28` of them. -/
theorem containerSize_lt (hc : e.chunkSize < Nat.pow 10 19) (hd : data.length ≤ 50000)
    (hi : fileId.length ≤ 1000) (ht : createdAt.shown.length ≤ 1000) :
    e.containerSize data fileId createdAt < 0x10000000 := by
  have large : 50000 < Nat.pow 10 19 := by decide
  have pieces : (ShardVault.chunks e.chunkSize data).length ≤ data.length :=
    length_chunksFrom_le data.length data
  have header := length_headerBytes_le hc (Nat.lt_of_le_of_lt hd large) hi ht
  have size := e.containerSize_le data fileId createdAt
  omega

variable {w : Workers} {nonces left : NonceSupply}

theorem exists_encryptBy_iff (w : Workers) (nonces : NonceSupply) (createdAt : DateTime) :
    (∃ answer, e.encryptBy w data fileId nonces createdAt = .ok answer) ↔
      data.length ≤ maxFileSize ∧ ∃ key, e.deriver.fileKey fileId = .ok key := by
  constructor
  · rintro ⟨⟨c, left⟩, h⟩
    obtain ⟨key, -, hkey, -⟩ := encryptBy_eq_ok h
    obtain ⟨fits, hkey⟩ := keyFor_eq_ok_iff.1 hkey
    exact ⟨fits, key, hkey⟩
  · rintro ⟨fits, key, hkey⟩
    obtain ⟨chunks, left, -, h⟩ :=
      exists_encryptBy w nonces createdAt (keyFor_eq_ok_iff.2 ⟨fits, hkey⟩)
    exact ⟨_, h⟩

/-- The container of a file has its shape, and as many bytes as its parts, if it has any. -/
theorem shapes_of_encryptBy (h : e.encryptBy w data fileId nonces createdAt = .ok (c, left)) :
    e.Shapes data fileId c ∧
      ((∃ bs, c.encode = .ok bs) ↔
        c.header.isWritable = true ∧ c.headerBytes.length < 0x100000000) ∧
      ∀ bs, c.encode = .ok bs →
        bs.length = 10 + c.headerBytes.length + 36 * c.chunks.length + data.length := by
  obtain ⟨key, chunks, hkey, sealed, rfl⟩ := encryptBy_eq_ok h
  obtain ⟨-, hkey⟩ := keyFor_eq_ok_iff.1 hkey
  obtain ⟨-, -, -, scalar, -⟩ := KeyDeriver.fileKey_eq_ok_iff.1 hkey
  refine ⟨shapes_assemble sealed, (sound_assemble createdAt scalar sealed).exists_encode_iff,
    fun bs hbs ↦ ?_⟩
  obtain ⟨-, size⟩ := length_of_encode hbs
  have blocks : ((e.assemble data fileId chunks createdAt).chunks.flatMap (·.block.encode)).length =
      36 * chunks.length + data.length := sealed.length_flatMap_encode
  rw [size, blocks, ← Nat.add_assoc]
  rfl

end Encryptor

end ShardVault.Container
