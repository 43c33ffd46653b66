import ShardVault.Proofs.Container.Verification

namespace ShardVault

variable {α : Type} {size place fuel : Nat} {xs : List α}

theorem getElem?_chunksFrom (hs : 0 < size) (h : xs.length ≤ fuel) :
    (chunksFrom size fuel xs)[place]? =
      if place * size < xs.length then some ((xs.drop (place * size)).take size) else none := by
  induction fuel generalizing xs place with
  | zero =>
    obtain rfl := List.length_eq_zero_iff.1 (Nat.le_zero.1 h)
    rfl
  | succ fuel ih =>
    cases xs with
    | nil => rfl
    | cons x xs =>
      rw [chunksFrom]
      cases place with
      | zero => simp
      | succ place =>
        have shorter : ((x :: xs).drop size).length ≤ fuel := by
          rw [List.length_drop]
          omega
        rw [List.getElem?_cons_succ, ih shorter, List.drop_drop, List.length_drop,
          Nat.add_one_mul, Nat.add_comm size]
        congr 1
        exact propext (by omega)

theorem getElem?_chunks (hs : 0 < size) (xs : List α) (place : Nat) : (chunks size xs)[place]? =
    if place * size < xs.length then some ((xs.drop (place * size)).take size) else none :=
  getElem?_chunksFrom hs (Nat.le_refl _)

theorem lt_length_chunks_iff (hs : 0 < size) :
    place < (chunks size xs).length ↔ place * size < xs.length := by
  rw [← not_iff_not, Nat.not_lt, ← List.getElem?_eq_none_iff, getElem?_chunks hs]
  split
  · next inside => exact iff_of_false nofun (not_not.2 inside)
  · next outside => exact iff_of_true rfl outside

theorem length_chunks (hs : 0 < size) :
    (chunks size xs).length = (xs.length + size - 1) / size := by
  apply eq_of_forall_lt_iff
  intro place
  rw [lt_length_chunks_iff hs, ← Nat.add_one_le_iff, ← Nat.add_one_le_iff,
    Nat.le_div_iff_mul_le hs, Nat.add_one_mul]
  omega

namespace Container.Encryptor

/-- A file that is not too large is sealed, and opened again by whoever holds the same master key. -/
theorem decryptBy_of_encryptBy (e : Encryptor) (reader : KeyDeriver) (w w' : Workers)
    (master : CipherKey) (data : Bytes) (fileId : Text) (nonces : NonceSupply)
    (createdAt : DateTime) (seals : e.deriver.source.master = .ok (some master.bytes))
    (opens : reader.source.master = .ok (some master.bytes))
    (info : reader.info = e.deriver.info) (scalar : fileId.isScalar = true)
    (fits : data.length ≤ maxFileSize) :
    ∃ c left, e.encryptBy w data fileId nonces createdAt = .ok (c, left) ∧
      c.decryptBy w' reader = .ok data ∧
      c.chunks.length = (data.length + e.chunkSize - 1) / e.chunkSize ∧
      ∀ place < c.chunks.length, c.decryptChunk reader (place : Nat) =
        .ok ((data.drop (place * e.chunkSize)).take e.chunkSize) := by
  obtain ⟨key, hkey⟩ := KeyDeriver.exists_fileKey seals scalar
  have reads := KeyDeriver.fileKey_congr (opens.trans seals.symm) info fileId
  rw [hkey] at reads
  obtain ⟨chunks, left, hs, encrypts⟩ :=
    exists_encryptBy w nonces createdAt (keyFor_eq_ok_iff.2 ⟨fits, hkey⟩)
  obtain ⟨count, each⟩ := forall₂_iff_getElem?.1 hs.opens
  refine ⟨_, left, encrypts, ?_, count.trans (length_chunks e.positive), fun place hp ↦ ?_⟩
  · rw [decryptBy_eq, decrypt_assemble reads hs]
  · have inside : place * e.chunkSize < data.length :=
      (lt_length_chunks_iff e.positive).1 (count ▸ hp)
    have piece := getElem?_chunks e.positive data place
    obtain ⟨chunk, hc, hopens⟩ := each place _ (piece.trans (if_pos inside))
    apply (isScalar_assemble createdAt scalar hs).decryptChunk_eq_ok_iff.2
    exact ⟨rfl, key, chunk, reads, hc, hopens⟩

theorem decryptBy_of_encryptBy_backward : ∃ (e : Encryptor) (reader : KeyDeriver) (c : Container)
    (left : NonceSupply),
    e.encryptBy .backward [7, 8, 9] "f" (.counting 0 false) .epoch = .ok (c, left) ∧
      c.decryptBy .backward reader = .ok [7, 8, 9] ∧ c.chunks.length = 2 ∧
      c.decryptChunk reader 0 = .ok [7, 8] ∧ c.decryptChunk reader 1 = .ok [9] := by
  let master : CipherKey := ⟨List.replicate 32 1, rfl⟩
  let reader : KeyDeriver := ⟨.given (some master.bytes), defaultKeyInfo⟩
  obtain ⟨c, left, encrypts, whole, count, each⟩ := decryptBy_of_encryptBy least reader .backward
    .backward master [7, 8, 9] "f" (.counting 0 false) .epoch rfl rfl rfl (by decide) (by decide)
  have two : c.chunks.length = 2 := by simpa [least] using count
  exact ⟨least, reader, c, left, encrypts, whole, two, each 0 (by omega), each 1 (by omega)⟩

end Container.Encryptor

end ShardVault
