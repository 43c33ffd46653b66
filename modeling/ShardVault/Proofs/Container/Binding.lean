import ShardVault.Proofs.Container.Recovery
import ShardVault.Proofs.Digest.Binding

namespace ShardVault.Container

variable {c : Container} {reader : KeyDeriver} {index : Int} {piece : Bytes}

theorem covered_of_decryptChunk (h : c.decryptChunk reader index = .ok piece) :
    Merkle.root c.chunkHashes = c.merkleRoot ∧ (∀ leaf ∈ c.chunkHashes, leaf.isScalar = true) ∧
      ∃ place : Nat, index = place ∧ c.chunkHashes[place]? = some (Sha256.hex piece) := by
  unfold decryptChunk at h
  split at h
  · cases h
  next chunk hchunk =>
  obtain ⟨inside, found⟩ : 0 ≤ index ∧ c.chunks[index.toNat]? = some chunk := by
    split at hchunk
    · cases hchunk
    · next inside => exact ⟨Int.not_lt.1 inside, hchunk⟩
  obtain ⟨place, rfl⟩ := Int.eq_ofNat_of_zero_le inside
  rw [Int.toNat_natCast] at found
  obtain ⟨path, hpath, h⟩ := bind_eq_ok.1 h
  obtain ⟨covered, hcovered, h⟩ := bind_eq_ok.1 h
  cases covered with
  | false => cases h
  | true =>
  obtain ⟨key, -, h⟩ := bind_eq_ok.1 h
  have leaf : c.chunkHashes[place]? = some chunk.hash := by
    rw [chunkHashes, List.getElem?_map, found, Option.map_some]
  have bound := (List.getElem?_eq_some_iff.1 leaf).1
  have hash := (openChunk_eq_ok_iff.1 h).hash
  have within : 0 ≤ (place : Int) ∧ (place : Int) < c.chunkHashes.length := by omega
  rw [Merkle.pathOf, if_pos within, Int.toNat_natCast] at hpath
  obtain ⟨leaves, rfl⟩ := Text.guarded_eq_ok_iff.1 hpath
  have climbs := beq_iff_eq.1 (Text.guarded_eq_ok_iff.1 hcovered).2
  have own : c.chunkHashes.getD place [] = chunk.hash := by
    rw [List.getD_eq_getElem?_getD, leaf, Option.getD_some]
  rw [← own, Merkle.climb_path bound] at climbs
  refine ⟨climbs, ?_, place, rfl, hash ▸ leaf⟩
  split at leaves
  · next few =>
    obtain ⟨only, single⟩ := List.length_eq_one_iff.1 (show c.chunkHashes.length = 1 by omega)
    have scalar := Sha256.isScalar_hex piece
    rw [hash] at scalar
    intro other ho
    have first := List.mem_of_getElem? leaf
    rw [single, List.mem_singleton] at ho first
    rw [ho, ← first, scalar]
  · exact List.all_eq_true.1 leaves

theorem Sealed.decryptChunk_assemble {e : Encryptor} {key : CipherKey} {pieces : List Bytes}
    {chunks : List Chunk} {data : Bytes} {fileId : Text} {createdAt : DateTime} {place : Nat}
    (h : Sealed key 0 pieces chunks) (scalar : fileId.isScalar = true)
    (reads : reader.fileKey fileId = .ok key) (hp : pieces[place]? = some piece) :
    (e.assemble data fileId chunks createdAt).decryptChunk reader (place : Nat) = .ok piece := by
  have leaves : ∀ leaf ∈ chunks.map (·.hash), leaf.isScalar = true := by
    rw [h.hashes]
    exact List.forall_mem_map.2 fun part _ ↦ Sha256.isScalar_hex part
  have texts : (e.assemble data fileId chunks createdAt).IsScalar :=
    ⟨scalar, Merkle.isScalar_root leaves, Sha256.isScalar_hex data, List.forall_mem_map.1 leaves⟩
  obtain ⟨-, each⟩ := forall₂_iff_getElem?.1 h.opens
  obtain ⟨chunk, hc, opens⟩ := each place piece hp
  exact texts.decryptChunk_eq_ok_iff.2 ⟨rfl, key, chunk, reads, hc, opens⟩

namespace Encryptor

variable {e : Encryptor} {data : Bytes}

theorem isDigests_hashes (pieces : List Bytes) : Merkle.IsDigests (pieces.map Sha256.hex) where
  scalar := List.forall_mem_map.2 fun piece _ ↦ Sha256.isScalar_hex piece
  length := List.forall_mem_map.2 fun piece _ ↦ Sha256.length_hex piece

theorem piece_of_getElem?_hashes {place : Nat} {hash : Text}
    (h : ((ShardVault.chunks e.chunkSize data).map Sha256.hex)[place]? = some hash) :
    (data.drop (place * e.chunkSize)).take e.chunkSize ∈ ShardVault.chunks e.chunkSize data ∧
      Sha256.hex ((data.drop (place * e.chunkSize)).take e.chunkSize) = hash := by
  rw [List.getElem?_map, Option.map_eq_some_iff] at h
  obtain ⟨piece, hp, rfl⟩ := h
  have part := hp
  rw [getElem?_chunks e.positive] at part
  split at part
  · rw [Option.some.inj part]
    exact ⟨List.mem_of_getElem? hp, rfl⟩
  · cases part

theorem eq_nil_of_root_nil {leaves : List Text} {place : Nat}
    (sameRoot : Merkle.root leaves = Merkle.root []) (scalar : ∀ h ∈ leaves, h.isScalar = true)
    (leaf : leaves[place]? = some (Sha256.hex piece)) (distinctPiece : ¬ Sha256.Collision [] piece)
    (distinct : ∀ y ∈ Merkle.hashed leaves, ¬ Sha256.Collision [] y) :
    leaves.length = 1 ∧ piece = [] := by
  have empty : Merkle.root [] = Sha256.hex [] := Merkle.root.eq_def []
  have hl := List.mem_of_getElem? leaf
  have single : leaves.length = 1 := by
    by_contra several
    have occupied := List.length_pos_of_mem hl
    have text : Sha256.hex piece ≠ [] := fun nothing ↦ by
      have size := Sha256.length_hex piece
      rw [nothing] at size
      cases size
    obtain ⟨message, hm, something, digest⟩ := Merkle.exists_hashed_root
      (show 1 < leaves.length by omega) scalar ⟨_, hl, text⟩
    rw [sameRoot, empty] at digest
    exact something ((Sha256.eq_or_collision digest).resolve_right (distinct message hm)).symm
  obtain ⟨only, rfl⟩ := List.length_eq_one_iff.1 single
  obtain rfl := List.mem_singleton.1 hl
  have own : Merkle.root [Sha256.hex piece] = Sha256.hex piece := Merkle.root.eq_def _
  rw [own, empty] at sameRoot
  exact ⟨rfl, ((Sha256.eq_or_collision sameRoot.symm).resolve_right distinctPiece).symm⟩

/-- A piece that is read under the root of the container of a file is the piece of the file at its
place, or at the place that the last of the pieces is repeated for, as long as the trees have one
height and no collision of the hash function is found. Otherwise a digest of one tree was sealed as
a piece of the other: a lower tree gives out what was hashed for an inner digest of the file, and
under a higher one the file begins with what was hashed for an inner digest. The root of the empty
file is that of one empty piece. -/
theorem decryptChunk_under_root (e : Encryptor) (w : Workers) (data piece : Bytes) (fileId : Text)
    (nonces left : NonceSupply) (createdAt : DateTime) (c c' : Container) (reader : KeyDeriver)
    (index : Int) (encrypts : e.encryptBy w data fileId nonces createdAt = .ok (c, left))
    (sameRoot : c'.merkleRoot = c.merkleRoot)
    (opened : c'.decryptChunk reader index = .ok piece)
    (distinct : ∀ x, x ∈ ShardVault.chunks e.chunkSize data ∨ x ∈ Merkle.hashed c.chunkHashes →
      ∀ y, y = piece ∨ y ∈ Merkle.hashed c'.chunkHashes → ¬ Sha256.Collision x y) :
    ∃ place : Nat, index = place ∧ place < c'.chunks.length ∧
      ((c.chunks = [] ∧ c'.chunks.length = 1 ∧ data = [] ∧ piece = []) ∨
      (Nat.clog 2 c'.chunks.length = Nat.clog 2 c.chunks.length ∧
        Merkle.origin c.chunks.length place < c.chunks.length ∧
        (place < c.chunks.length → Merkle.origin c.chunks.length place = place) ∧
        piece = (data.drop (Merkle.origin c.chunks.length place * e.chunkSize)).take
          e.chunkSize) ∨
      (Nat.clog 2 c'.chunks.length < Nat.clog 2 c.chunks.length ∧
        piece ∈ Merkle.hashed c.chunkHashes) ∨
      (Nat.clog 2 c.chunks.length < Nat.clog 2 c'.chunks.length ∧ data ≠ [] ∧
        data.take e.chunkSize ∈ Merkle.hashed c'.chunkHashes)) := by
  obtain ⟨key, chunks, -, hs, rfl⟩ := encryptBy_eq_ok encrypts
  obtain ⟨root, scalar, place, rfl, leaf⟩ := covered_of_decryptChunk opened
  have hashes : (e.assemble data fileId chunks createdAt).chunkHashes =
      (ShardVault.chunks e.chunkSize data).map Sha256.hex := hs.hashes
  have count : (e.assemble data fileId chunks createdAt).chunks.length =
      ((ShardVault.chunks e.chunkSize data).map Sha256.hex).length := by
    rw [← hashes, chunkHashes, List.length_map]
  have count' : c'.chunks.length = c'.chunkHashes.length := by rw [chunkHashes, List.length_map]
  have sameRoot : Merkle.root c'.chunkHashes =
      Merkle.root ((ShardVault.chunks e.chunkSize data).map Sha256.hex) := by
    rw [root, sameRoot, ← hashes]
    rfl
  have bound := (List.getElem?_eq_some_iff.1 leaf).1
  refine ⟨place, rfl, count' ▸ bound, ?_⟩
  rw [count, count']
  rw [hashes] at distinct ⊢
  rcases Decidable.em (data = []) with rfl | filled
  · obtain ⟨single, rfl⟩ := eq_nil_of_root_nil sameRoot scalar leaf
      (distinct [] (.inr (by simp [Merkle.hashed, ShardVault.chunks, chunksFrom])) _ (.inl rfl))
      fun y hy ↦ distinct [] (.inr (by simp [Merkle.hashed, ShardVault.chunks, chunksFrom])) y
        (.inr hy)
    exact .inl ⟨List.length_eq_zero_iff.1 count, single, rfl, rfl⟩
  · have first : 0 * e.chunkSize < data.length := by
      rw [Nat.zero_mul]
      exact List.length_pos_iff.2 filled
    have nonempty : (ShardVault.chunks e.chunkSize data).map Sha256.hex ≠ [] := by
      rw [← List.length_pos_iff, List.length_map]
      exact (lt_length_chunks_iff e.positive).2 first
    refine .inr ?_
    rcases Merkle.leaf_cases scalar (isDigests_hashes _) nonempty sameRoot
      (fun x hx y hy ↦ distinct x (.inr hx) y (.inr hy)) leaf (Sha256.length_hex piece)
      with ⟨height, same⟩ | ⟨height, message, hm, digest⟩ | ⟨height, message, hm, digest⟩
    · obtain ⟨hp, digest⟩ := piece_of_getElem?_hashes same
      refine .inl ⟨height, (List.getElem?_eq_some_iff.1 same).1, Merkle.origin_of_lt, ?_⟩
      exact ((Sha256.eq_or_collision digest).resolve_right
        (distinct _ (.inl hp) _ (.inl rfl))).symm
    · obtain rfl := (Sha256.eq_or_collision digest.symm).resolve_right
        (distinct _ (.inr hm) _ (.inl rfl))
      exact .inr (.inl ⟨height, hm⟩)
    · obtain ⟨hp, digest⟩ := piece_of_getElem?_hashes digest
      rw [Nat.zero_mul, List.drop_zero] at hp digest
      obtain rfl := (Sha256.eq_or_collision digest).resolve_right
        (distinct _ (.inl hp) _ (.inr hm))
      exact .inr (.inr ⟨height, filled, hm⟩)

def sized (size : Nat) (positive : 0 < size) : Encryptor :=
  { least with chunkSize := size, positive }

theorem exists_forged {size : Nat} (positive : 0 < size) {data : Bytes} (forged : List Bytes)
    (fits : data.length ≤ maxFileSize) (sameRoot : Merkle.root (forged.map Sha256.hex) =
      Merkle.root ((ShardVault.chunks size data).map Sha256.hex)) :
    ∃ (c c' : Container) (left : NonceSupply),
      (sized size positive).encryptBy .backward data "f" (.counting 0 true) .epoch =
        .ok (c, left) ∧
      c'.fileId = c.fileId ∧ c'.merkleRoot = c.merkleRoot ∧
      c.chunkHashes = (ShardVault.chunks size data).map Sha256.hex ∧
      c'.chunkHashes = forged.map Sha256.hex ∧
      ∀ {index : Nat} {piece : Bytes}, forged[index]? = some piece →
        c'.decryptChunk (sized size positive).deriver index = .ok piece := by
  have scalar : Text.isScalar "f" = true := by decide
  obtain ⟨key, hkey⟩ := (sized size positive).exists_keyFor rfl scalar fits
  obtain ⟨chunks, left, hs, encrypts⟩ :=
    exists_encryptBy .backward (.counting 0 true) .epoch hkey
  obtain ⟨others, -, hs'⟩ := sealChunks_sealed key 0 (.counting 0 true) [] forged
  have reads := (keyFor_eq_ok_iff.1 hkey).2
  refine ⟨_, (sized size positive).assemble data "f" others .epoch, left, encrypts, rfl, ?_,
    hs.hashes, hs'.hashes, fun found ↦ hs'.decryptChunk_assemble scalar reads found⟩
  simpa only [assemble, sized, hs.hashes, hs'.hashes] using sameRoot

def hashedThree : List Bytes :=
  [Utf8.encodeAll (Sha256.hex [7] ++ Sha256.hex [8]),
    Utf8.encodeAll (Sha256.hex [9] ++ Sha256.hex [9]),
    Utf8.encodeAll (Merkle.join (Sha256.hex [7]) (Sha256.hex [8]) ++
      Merkle.join (Sha256.hex [9]) (Sha256.hex [9]))]

theorem decryptChunk_under_root_least : ∃ (c c' : Container) (left : NonceSupply),
    (sized 1 Nat.one_pos).encryptBy .backward [7, 8, 9] "f" (.counting 0 true) .epoch =
        .ok (c, left) ∧
      c.chunks.length = 3 ∧ c'.chunks.length = 4 ∧ c'.merkleRoot = c.merkleRoot ∧
      c'.decryptChunk (sized 1 Nat.one_pos).deriver 3 = .ok [9] ∧ Merkle.origin 3 3 < 3 ∧
      [9] = (([7, 8, 9] : Bytes).drop (Merkle.origin 3 3 * 1)).take 1 := by
  have pieces : ShardVault.chunks 1 ([7, 8, 9] : Bytes) = [[7], [8], [9]] := rfl
  have sameRoot : Merkle.root ([[7], [8], [9], [9]].map Sha256.hex) =
      Merkle.root ((ShardVault.chunks 1 ([7, 8, 9] : Bytes)).map Sha256.hex) := by
    simp [pieces, Merkle.root, Merkle.nextLevel]
  obtain ⟨c, c', left, encrypts, -, root, hashes, hashes', opens⟩ :=
    exists_forged Nat.one_pos [[7], [8], [9], [9]] (by decide) sameRoot
  have count : c.chunks.length = 3 := by
    rw [← List.length_map (·.hash), ← chunkHashes, hashes]
    rfl
  have count' : c'.chunks.length = 4 := by
    rw [← List.length_map (·.hash), ← chunkHashes, hashes']
    rfl
  have opened : c'.decryptChunk (sized 1 Nat.one_pos).deriver (3 : Nat) = .ok [9] := opens rfl
  have hashed : Merkle.hashed c.chunkHashes = hashedThree := by
    rw [hashes]
    simp [pieces, hashedThree, Merkle.hashed, Merkle.pairs, Merkle.nextLevel]
  have hashed' : Merkle.hashed c'.chunkHashes = hashedThree := by
    rw [hashes']
    simp [hashedThree, Merkle.hashed, Merkle.pairs, Merkle.nextLevel]
  have distinct : ∀ x ∈ [[7], [8], [9]] ++ hashedThree, ∀ y ∈ [9] :: hashedThree,
      ¬ Sha256.Collision x y := by
    unfold Sha256.Collision hashedThree
    decide +kernel
  obtain ⟨place, hplace, -, cases⟩ := decryptChunk_under_root (sized 1 Nat.one_pos) .backward
    [7, 8, 9] [9] "f" (.counting 0 true) left .epoch c c' _ (3 : Nat) encrypts root opened (by
      rw [hashed, hashed']
      exact fun x hx y hy ↦ distinct x (List.mem_append.2 hx) y (List.mem_cons.2 hy))
  obtain rfl : 3 = place := Int.ofNat_inj.1 hplace
  rw [count, count'] at cases
  refine ⟨c, c', left, encrypts, count, count', root, opened, ?_⟩
  -- Both trees are of height two, and the file has pieces.
  rcases cases with ⟨-, -, filled, -⟩ | ⟨-, inside, -, same⟩ | ⟨height, -⟩ | ⟨height, -⟩
  · cases filled
  · exact ⟨inside, same⟩
  · exact absurd height (by decide +kernel)
  · exact absurd height (by decide +kernel)

/-- Under the root of the container of a file, another container gives out a piece that the file
does not have at the place, and no two of the messages that were hashed for both have one digest. -/
def Misread (e : Encryptor) (data : Bytes) (index : Nat) (piece : Bytes) : Prop :=
  ∃ (c c' : Container) (left : NonceSupply),
    e.encryptBy .backward data "f" (.counting 0 true) .epoch = .ok (c, left) ∧
    c'.fileId = c.fileId ∧ c'.merkleRoot = c.merkleRoot ∧
    c'.decryptChunk e.deriver index = .ok piece ∧
    (let messages := data :: piece :: ShardVault.chunks e.chunkSize data ++
        Merkle.hashed c.chunkHashes ++ Merkle.hashed c'.chunkHashes
      ∀ x ∈ messages, ∀ y ∈ messages, ¬ Sha256.Collision x y) ∧
    ¬ (index < c.chunks.length ∧
      piece = (data.drop (index * e.chunkSize)).take e.chunkSize)

theorem misread_of_root_eq {size index : Nat} {positive : 0 < size} {data piece : Bytes}
    {messages : List Bytes} (forged : List Bytes) (fits : data.length ≤ maxFileSize)
    (sameRoot : Merkle.root (forged.map Sha256.hex) =
      Merkle.root ((ShardVault.chunks size data).map Sha256.hex))
    (found : forged[index]? = some piece)
    (among : data :: piece :: ShardVault.chunks size data ++
      Merkle.hashed ((ShardVault.chunks size data).map Sha256.hex) ++
      Merkle.hashed (forged.map Sha256.hex) ⊆ messages)
    (distinct : ∀ x ∈ messages, ∀ y ∈ messages, ¬ Sha256.Collision x y)
    (differs : ¬ (index < (ShardVault.chunks size data).length ∧
      piece = (data.drop (index * size)).take size)) :
    Misread (sized size positive) data index piece := by
  obtain ⟨c, c', left, encrypts, sameId, root, hashes, hashes', opens⟩ :=
    exists_forged positive forged fits sameRoot
  refine ⟨c, c', left, encrypts, sameId, root, opens found, ?_, ?_⟩
  · rw [hashes, hashes']
    exact fun x hx y hy ↦ distinct x (among hx) y (among hy)
  · have count : c.chunks.length = (ShardVault.chunks size data).length := by
      rw [← List.length_map (·.hash), ← chunkHashes, hashes, List.length_map]
    rwa [count]

def twins : Bytes :=
  Utf8.encodeAll (Sha256.hex [7] ++ Sha256.hex [7])

/-- The last of three pieces is read again at a fourth place, an inner digest is read as a piece and
a piece as an inner digest, and an empty file gives out an empty piece. -/
theorem misread_under_root : Misread (sized 1 Nat.one_pos) [7, 7, 7] 3 [7] ∧
    Misread (sized 1 Nat.one_pos) [7, 7] 0 twins ∧
    Misread (sized 128 (by decide)) twins 0 [7] ∧ Misread (sized 1 Nat.one_pos) [] 0 [] := by
  have three : ShardVault.chunks 1 ([7, 7, 7] : Bytes) = [[7], [7], [7]] := rfl
  have two : ShardVault.chunks 1 ([7, 7] : Bytes) = [[7], [7]] := rfl
  have none : ShardVault.chunks 1 ([] : Bytes) = [] := rfl
  have whole : ShardVault.chunks 128 twins = [twins] := by decide +kernel
  have pair : Merkle.join (Sha256.hex [7]) (Sha256.hex [7]) = Sha256.hex twins := rfl
  have joined : Utf8.encodeAll (Sha256.hex [7] ++ Sha256.hex [7]) = twins := rfl
  have distinct : ∀ x ∈ [[], [7], [7, 7], [7, 7, 7], twins,
        Utf8.encodeAll (Sha256.hex twins ++ Sha256.hex twins)],
      ∀ y ∈ [[], [7], [7, 7], [7, 7, 7], twins,
        Utf8.encodeAll (Sha256.hex twins ++ Sha256.hex twins)], ¬ Sha256.Collision x y := by
    unfold Sha256.Collision
    decide +kernel
  refine ⟨misread_of_root_eq [[7], [7], [7], [7]] (by decide) ?_ rfl ?_ distinct (by decide),
    misread_of_root_eq [twins] (by decide) ?_ rfl ?_ distinct ?_,
    misread_of_root_eq [[7], [7]] (by decide +kernel) ?_ rfl ?_ distinct ?_,
    misread_of_root_eq [[]] (by decide) ?_ rfl ?_ distinct (by decide)⟩
  · simp [three, Merkle.root, Merkle.nextLevel]
  · simp [three, Merkle.hashed, Merkle.pairs, Merkle.nextLevel, pair, joined]
  · simp [two, Merkle.root, Merkle.nextLevel, pair]
  · simp [two, Merkle.hashed, Merkle.pairs, Merkle.nextLevel, pair, joined]
  · rw [two]
    decide +kernel
  · simp [whole, Merkle.root, Merkle.nextLevel, pair]
  · simp [whole, Merkle.hashed, Merkle.pairs, Merkle.nextLevel, pair, joined]
  · rw [whole]
    decide +kernel
  · simp [none, Merkle.root, Merkle.emptyRoot]
  · simp [none, Merkle.hashed]

end Encryptor

end ShardVault.Container
