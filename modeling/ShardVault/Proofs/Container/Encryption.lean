import ShardVault.Container.Encrypt
import ShardVault.Proofs.Container.Decryption
import ShardVault.Proofs.Container.RoundTrip
import ShardVault.Proofs.Json.Plain

namespace ShardVault

theorem SealedBlock.length_encode_encrypt (key : CipherKey) (nonce : Nonce) (piece : Bytes) :
    (SealedBlock.encrypt key nonce [] piece).encode.length = 36 + piece.length := by
  rw [SealedBlock.length_encode]
  simp only [SealedBlock.encrypt, Gcm.encrypt, nonce.size, Gcm.length_tag, Gcm.length_hide]

namespace Container

/-- Chunks that seal pieces under a key, numbered from a position on. -/
inductive Sealed (key : CipherKey) : (position : Nat) → List Bytes → List Chunk → Prop
  | nil {position : Nat} : Sealed key position [] []
  | cons {position : Nat} {pieces : List Bytes} {chunks : List Chunk} (nonce : Nonce)
      (piece : Bytes) (rest : Sealed key (position + 1) pieces chunks) :
      Sealed key position (piece :: pieces)
        (⟨position, SealedBlock.encrypt key nonce [] piece, Sha256.hex piece⟩ :: chunks)

theorem sealChunks_sealed (key : CipherKey) (position : Nat) (nonces : NonceSupply)
    (done : List Chunk) (pieces : List Bytes) :
    ∃ chunks, (sealChunks key position nonces done pieces).1 = done.reverse ++ chunks ∧
      Sealed key position pieces chunks := by
  induction pieces generalizing position nonces done with
  | nil => exact ⟨[], by simp [sealChunks], .nil⟩
  | cons piece pieces ih =>
    obtain ⟨chunks, he, hs⟩ := ih (position + 1) nonces.draw.2
      (⟨position, SealedBlock.encrypt key nonces.draw.1 [] piece, Sha256.hex piece⟩ :: done)
    exact ⟨_, by simpa [sealChunks] using he, .cons nonces.draw.1 piece hs⟩

theorem Encryptor.seal_sealed (e : Encryptor) (key : CipherKey) (data : Bytes)
    (nonces : NonceSupply) :
    Sealed key 0 (ShardVault.chunks e.chunkSize data) (e.seal key data nonces).1 := by
  obtain ⟨chunks, he, hs⟩ :=
    sealChunks_sealed key 0 nonces [] (ShardVault.chunks e.chunkSize data)
  rw [List.reverse_nil, List.nil_append] at he
  rw [Encryptor.seal, he]
  exact hs

theorem opens_encrypt (key : CipherKey) (nonce : Nonce) (index : Int) (piece : Bytes) :
    Opens key ⟨index, SealedBlock.encrypt key nonce [] piece, Sha256.hex piece⟩ piece where
  nonce := nonce.size
  tag := Gcm.length_tag _ _ _ _
  text := Gcm.decrypt?_encrypt key.bytes nonce.bytes [] piece
  hash := rfl

namespace Sealed

variable {key : CipherKey} {position : Nat} {pieces : List Bytes} {chunks : List Chunk}

theorem placed (h : Sealed key position pieces chunks) : firstMoved? position chunks = none := by
  induction h with
  | nil => rfl
  | cons nonce piece rest ih => simpa [firstMoved?] using ih

theorem hashes (h : Sealed key position pieces chunks) :
    chunks.map (·.hash) = pieces.map Sha256.hex := by
  induction h with
  | nil => rfl
  | cons nonce piece rest ih => rw [List.map_cons, ih, List.map_cons]

theorem forall_chunk {P : Chunk → Prop} (h : Sealed key position pieces chunks)
    (hp : ∀ (index : Nat) (nonce : Nonce) (piece : Bytes),
      P ⟨index, SealedBlock.encrypt key nonce [] piece, Sha256.hex piece⟩) :
    ∀ chunk ∈ chunks, P chunk := by
  induction h with
  | nil => exact fun _ hc ↦ nomatch hc
  | cons nonce piece rest ih => exact List.forall_mem_cons.2 ⟨hp _ nonce piece, ih⟩

theorem opens (h : Sealed key position pieces chunks) :
    List.Forall₂ (Opens key) chunks pieces := by
  induction h with
  | nil => exact .nil
  | cons nonce piece rest ih => exact .cons (opens_encrypt key nonce _ piece) ih

end Sealed

variable {e : Encryptor} {key : CipherKey} {data : Bytes} {fileId : Text} {chunks : List Chunk}
  {createdAt : DateTime}

theorem isScalar_merkleRoot (h : Sealed key 0 (ShardVault.chunks e.chunkSize data) chunks) :
    (Merkle.root (chunks.map (·.hash))).isScalar = true := by
  apply Merkle.isScalar_root
  intro leaf hl
  rw [h.hashes, List.mem_map] at hl
  obtain ⟨piece, -, rfl⟩ := hl
  exact Sha256.isScalar_hex piece

theorem isScalar_assemble (createdAt : DateTime) (hid : fileId.isScalar = true)
    (h : Sealed key 0 (ShardVault.chunks e.chunkSize data) chunks) :
    (e.assemble data fileId chunks createdAt).IsScalar where
  fileId := hid
  merkleRoot := isScalar_merkleRoot h
  plainHash := Sha256.isScalar_hex data
  hash := h.forall_chunk fun _ _ piece ↦ Sha256.isScalar_hex piece

theorem sound_assemble (createdAt : DateTime) (hid : fileId.isScalar = true)
    (h : Sealed key 0 (ShardVault.chunks e.chunkSize data) chunks) :
    (e.assemble data fileId chunks createdAt).Sound where
  placed := h.placed
  plainSize := Int.natCast_nonneg _
  chunkSize := Int.natCast_pos.2 e.positive
  nonce := h.forall_chunk fun _ nonce _ ↦ by
    rw [SealedBlock.encrypt, nonce.size]
    decide
  tag := h.forall_chunk fun _ _ _ ↦ by
    simp only [SealedBlock.encrypt, Gcm.encrypt, Gcm.length_tag]
    decide
  hash := h.forall_chunk fun _ _ piece ↦ Text.unpaired_of_isScalar (Sha256.isScalar_hex piece)
  fileId := Text.unpaired_of_isScalar hid
  merkleRoot := Text.unpaired_of_isScalar (isScalar_merkleRoot h)
  plainHash := Text.unpaired_of_isScalar (Sha256.isScalar_hex data)

theorem decrypt_assemble {deriver : KeyDeriver} (hkey : deriver.fileKey fileId = .ok key)
    (h : Sealed key 0 (ShardVault.chunks e.chunkSize data) chunks) :
    (e.assemble data fileId chunks createdAt).decrypt deriver = .ok data :=
  decrypt_eq_ok_iff.2 ⟨h.placed, rfl, key, _, hkey, h.opens, (chunks_flatten e.positive data).symm,
    rfl, rfl⟩

theorem Encryptor.keyFor_eq_ok_iff : e.keyFor data fileId = .ok key ↔
    data.length ≤ maxFileSize ∧ e.deriver.fileKey fileId = .ok key := by
  unfold keyFor
  split
  · next large => exact iff_of_false nofun fun ⟨fits, _⟩ ↦ Nat.not_lt.2 fits large
  · next fits => exact (and_iff_right (Nat.not_lt.1 fits)).symm

theorem Encryptor.exists_keyFor (e : Encryptor) {master : CipherKey}
    (hkey : e.deriver.source = .fixed master) (hid : fileId.isScalar = true)
    (hdata : data.length ≤ maxFileSize) : ∃ key, e.keyFor data fileId = .ok key := by
  have hmaster : e.deriver.source.master = .ok (some master.bytes) := by rw [hkey]; rfl
  obtain ⟨key, hk⟩ := KeyDeriver.exists_fileKey hmaster hid
  exact ⟨key, keyFor_eq_ok_iff.2 ⟨hdata, hk⟩⟩

def entriesFrom (position : Nat) : List Bytes → List Json
  | [] => []
  | piece :: pieces =>
    .object [("index", .int position), ("originalHash", .text (Sha256.hex piece)),
      ("length", .int (36 + piece.length : Nat))] :: entriesFrom (position + 1) pieces

def Encryptor.headerFor (e : Encryptor) (data : Bytes) (fileId : Text) (createdAt : DateTime) :
    Json :=
  let pieces := ShardVault.chunks e.chunkSize data
  .object [("fileId", .text fileId),
    ("merkleRoot", .text (Merkle.root (pieces.map Sha256.hex))),
    ("originalHash", .text (Sha256.hex data)), ("originalSize", .int data.length),
    ("chunkSize", .int e.chunkSize), ("createdAt", .text createdAt.shown),
    ("chunks", .list (entriesFrom 0 pieces))]

def Encryptor.headerBytes (e : Encryptor) (data : Bytes) (fileId : Text) (createdAt : DateTime) :
    Bytes :=
  Utf8.encodeAll (Json.write Json.compact (e.headerFor data fileId createdAt))

/-- The size of a chunk can be written into the header of a container, and the length of the header
fits four bytes. -/
structure Encryptor.HeaderFits (e : Encryptor) (data : Bytes) (fileId : Text)
    (createdAt : DateTime) : Prop where
  chunkSize : e.chunkSize < Nat.pow 10 Numeral.digitLimit
  length : (e.headerBytes data fileId createdAt).length < 0x100000000

def Encryptor.containerSize (e : Encryptor) (data : Bytes) (fileId : Text)
    (createdAt : DateTime) : Nat :=
  10 + (e.headerBytes data fileId createdAt).length +
    ((ShardVault.chunks e.chunkSize data).map fun piece ↦ 36 + piece.length).sum

theorem Encryptor.exists_length_headerBytes (e : Encryptor) (data : Bytes) (fileId : Text) :
    ∃ rest, ∀ createdAt : DateTime, (e.headerBytes data fileId createdAt).length =
      rest + (Utf8.encodeAll (Json.writeText true createdAt.shown)).length := by
  have parts (t : DateTime) : (Utf8.encodeAll Json.compact.betweenItems).length +
      (e.headerBytes data fileId t).length = _ :=
    Json.length_encodeAll_object Json.compact (List.cons_ne_nil _ _)
  have time (t : DateTime) : Json.fieldText Json.compact ("createdAt", .text t.shown) =
      Json.writeText true "createdAt" ++ Json.compact.afterKey ++ Json.writeText true t.shown := by
    rw [Json.fieldText, Json.write]
    rfl
  simp only [List.map_cons, List.map_nil, List.sum_cons, List.sum_nil, time, Utf8.encodeAll_append,
    List.length_append] at parts
  refine ⟨(e.headerBytes data fileId .epoch).length -
    (Utf8.encodeAll (Json.writeText true DateTime.epoch.shown)).length, fun createdAt ↦ ?_⟩
  have later := parts createdAt
  have first := parts .epoch
  omega

theorem Sealed.entries {position : Nat} {pieces : List Bytes}
    (h : Sealed key position pieces chunks) : chunks.map entry = entriesFrom position pieces := by
  induction h with
  | nil => rfl
  | cons nonce piece rest ih =>
    rw [List.map_cons, ih, entriesFrom, entry, SealedBlock.length_encode_encrypt]

theorem Sealed.length_blocks {position : Nat} {pieces : List Bytes}
    (h : Sealed key position pieces chunks) : (chunks.flatMap (·.block.encode)).length =
      (pieces.map fun piece ↦ 36 + piece.length).sum := by
  induction h with
  | nil => rfl
  | cons nonce piece rest ih =>
    rw [List.flatMap_cons, List.length_append, ih, SealedBlock.length_encode_encrypt,
      List.map_cons, List.sum_cons]

theorem header_assemble (h : Sealed key 0 (ShardVault.chunks e.chunkSize data) chunks) :
    (e.assemble data fileId chunks createdAt).header = e.headerFor data fileId createdAt := by
  simp only [header, Encryptor.assemble, h.entries, h.hashes, Encryptor.headerFor]

theorem entriesFrom_small {position : Nat} {pieces : List Bytes}
    (hn : position + pieces.length < Nat.pow 10 19)
    (hl : ∀ piece ∈ pieces, piece.length < Nat.pow 10 19) :
    Json.areWritable (entriesFrom position pieces) = true ∧
      Json.itemWeight (entriesFrom position pieces) ≤ 1103 * pieces.length := by
  induction pieces generalizing position with
  | nil => exact ⟨rfl, Nat.le_refl 0⟩
  | cons piece pieces ih =>
    rw [List.length_cons] at hn ⊢
    have hp := hl piece (by simp)
    have index : (position : Int).natAbs < Nat.pow 10 20 := by
      have : Nat.pow 10 20 = 10 * Nat.pow 10 19 := rfl
      omega
    have length : ((36 + piece.length : Nat) : Int).natAbs < Nat.pow 10 20 := by
      have : Nat.pow 10 20 = 36 + (10 * Nat.pow 10 19 - 36) := by decide
      have : 36 < Nat.pow 10 19 := by decide
      omega
    have w1 := Text.length_ofInt_le (by decide) index
    have w2 := Text.length_ofInt_le (by decide) length
    have rest := ih (show position + 1 + pieces.length < Nat.pow 10 19 by omega)
      fun x hx ↦ hl x (by simp [hx])
    refine ⟨?_, ?_⟩
    · rw [entriesFrom, Json.areWritable, rest.1, Json.isWritable]
      simp only [Json.fieldsWritable, Json.isWritable_int index, Json.isWritable_text,
        Json.isWritable_int length, Bool.and_self]
    · have k1 : (Text.ofString "index").length = 5 := rfl
      have k2 : (Text.ofString "originalHash").length = 12 := rfl
      have k3 : (Text.ofString "length").length = 6 := rfl
      simp only [entriesFrom, Json.itemWeight, Json.weight, Json.fieldWeight, k1, k2, k3,
        Sha256.length_hex]
      omega

theorem length_chunksFrom_le {α : Type} {size : Nat} (fuel : Nat) (xs : List α) :
    (chunksFrom size fuel xs).length ≤ fuel := by
  induction fuel generalizing xs with
  | zero => exact Nat.le_refl 0
  | succ fuel ih =>
    cases xs with
    | nil => simp [chunksFrom]
    | cons x xs =>
      have := ih ((x :: xs).drop size)
      simp only [chunksFrom, List.length_cons]
      omega

theorem entriesFrom_chunks_small {e : Encryptor} {data : Bytes} (hd : data.length < Nat.pow 10 19) :
    Json.areWritable (entriesFrom 0 (ShardVault.chunks e.chunkSize data)) = true ∧
      Json.itemWeight (entriesFrom 0 (ShardVault.chunks e.chunkSize data)) ≤
        1103 * (ShardVault.chunks e.chunkSize data).length := by
  have count : (ShardVault.chunks e.chunkSize data).length ≤ data.length :=
    length_chunksFrom_le data.length data
  have pieces : ∀ piece ∈ ShardVault.chunks e.chunkSize data, piece.length < Nat.pow 10 19 := by
    intro piece hp
    refine Nat.lt_of_le_of_lt ?_ hd
    conv => rhs; rw [← chunks_flatten e.positive data]
    exact (List.sublist_flatten_of_mem hp).length_le
  exact entriesFrom_small
    (show 0 + (ShardVault.chunks e.chunkSize data).length < Nat.pow 10 19 by omega) pieces

theorem isWritable_headerFor {e : Encryptor} {data : Bytes}
    (hc : e.chunkSize < Nat.pow 10 Numeral.digitLimit) (hd : data.length < Nat.pow 10 19)
    (fileId : Text) (createdAt : DateTime) :
    (e.headerFor data fileId createdAt).isWritable = true := by
  have grows : Nat.pow 10 20 = 10 * Nat.pow 10 19 := rfl
  obtain ⟨writable, -⟩ := entriesFrom_chunks_small (e := e) hd
  have plainSize : (Json.int data.length).isWritable = true := Json.isWritable_int (by omega)
  have chunkSize : (Json.int e.chunkSize).isWritable = true := by
    rwa [Json.isWritable, decide_eq_true_iff, Int.natAbs_natCast]
  rw [Encryptor.headerFor, Json.isWritable]
  simp only [Json.fieldsWritable, Json.isWritable_text, plainSize, chunkSize,
    Json.isWritable_list, writable, Bool.and_self]

theorem encode_assemble (createdAt : DateTime) (hid : fileId.isScalar = true)
    (h : Sealed key 0 (ShardVault.chunks e.chunkSize data) chunks)
    (hd : data.length < Nat.pow 10 19) (hf : e.HeaderFits data fileId createdAt) :
    ∃ payload, (e.assemble data fileId chunks createdAt).encode = .ok payload ∧
      payload.length = e.containerSize data fileId createdAt := by
  have writable := isWritable_headerFor hf.chunkSize hd fileId createdAt
  rw [← header_assemble h] at writable
  have header : (e.assemble data fileId chunks createdAt).headerBytes =
      e.headerBytes data fileId createdAt := by
    rw [headerBytes, header_assemble h, Encryptor.headerBytes]
  rw [(sound_assemble createdAt hid h).encode_eq writable, header,
    if_neg (Nat.not_le.2 hf.length)]
  refine ⟨_, rfl, ?_⟩
  simp only [List.length_append, length_preamble, Encryptor.containerSize, Encryptor.assemble,
    h.length_blocks, Nat.add_assoc]

theorem Encryptor.length_headerBytes_le {e : Encryptor} {data : Bytes} {fileId : Text}
    {createdAt : DateTime} (hc : e.chunkSize < Nat.pow 10 19) (hd : data.length < Nat.pow 10 19)
    (hi : fileId.length ≤ 1000) (ht : createdAt.shown.length ≤ 1000) :
    (e.headerBytes data fileId createdAt).length ≤
      200000 + 4412 * (ShardVault.chunks e.chunkSize data).length := by
  have grows : Nat.pow 10 20 = 10 * Nat.pow 10 19 := rfl
  obtain ⟨-, small⟩ := entriesFrom_chunks_small (e := e) hd
  have plainSize : (data.length : Int).natAbs < Nat.pow 10 20 := by omega
  have chunkSize : (e.chunkSize : Int).natAbs < Nat.pow 10 20 := by omega
  have w1 := Text.length_ofInt_le (by decide) plainSize
  have w2 := Text.length_ofInt_le (by decide) chunkSize
  have root : (Merkle.root ((ShardVault.chunks e.chunkSize data).map Sha256.hex)).length = 64 :=
    Merkle.length_root (by simp)
  have bytes := Utf8.length_encodeAll_le (Json.write Json.compact (e.headerFor data fileId createdAt))
  have weight := Json.length_write_le_weight (e.headerFor data fileId createdAt)
  have k1 : (Text.ofString "fileId").length = 6 := rfl
  have k2 : (Text.ofString "merkleRoot").length = 10 := rfl
  have k3 : (Text.ofString "originalHash").length = 12 := rfl
  have k4 : (Text.ofString "originalSize").length = 12 := rfl
  have k5 : (Text.ofString "chunkSize").length = 9 := rfl
  have k6 : (Text.ofString "createdAt").length = 9 := rfl
  have k7 : (Text.ofString "chunks").length = 6 := rfl
  simp only [Encryptor.headerFor, Json.weight, Json.fieldWeight, k1, k2, k3, k4, k5, k6, k7, root,
    Sha256.length_hex] at weight
  simp only [Encryptor.headerBytes, Encryptor.headerFor] at bytes ⊢
  omega

/-- The header of the container of a file fits if there are at most half a million chunks. -/
theorem headerFits_of_chunks_le {e : Encryptor} {data : Bytes} {fileId : Text}
    {createdAt : DateTime} (hc : e.chunkSize < Nat.pow 10 19) (hd : data.length < Nat.pow 10 19)
    (count : (ShardVault.chunks e.chunkSize data).length ≤ 500000)
    (hi : fileId.length ≤ 1000) (ht : createdAt.shown.length ≤ 1000) :
    e.HeaderFits data fileId createdAt := by
  have limit {k : Nat} : 19 ≤ k → Nat.pow 10 19 ≤ Nat.pow 10 k :=
    Nat.pow_le_pow_right (by decide)
  refine ⟨Nat.lt_of_lt_of_le hc (limit (by decide)), ?_⟩
  have header := Encryptor.length_headerBytes_le hc hd hi ht
  omega

theorem headerFits_of_length_le {e : Encryptor} {data : Bytes} {fileId : Text}
    {createdAt : DateTime} (hc : e.chunkSize < Nat.pow 10 19) (hd : data.length ≤ 500000)
    (hi : fileId.length ≤ 1000) (ht : createdAt.shown.length ≤ 1000) :
    e.HeaderFits data fileId createdAt := by
  have large : 500000 < Nat.pow 10 19 := by decide
  exact headerFits_of_chunks_le hc (Nat.lt_of_le_of_lt hd large)
    (Nat.le_trans (length_chunksFrom_le data.length data) hd) hi ht

end Container

end ShardVault
