import ShardVault.Proofs.Container.Workers

namespace ShardVault

namespace Container

variable {deriver : KeyDeriver} {c : Container} {chunk : Chunk} {place : Nat} {piece : Bytes}

/-- What several workers or one give out is the file that a container vouches for: all its chunks
are at their places under the root, and open under the key of the file to pieces with their hashes,
which together have the size and the hash of the file. -/
theorem decryptBy_eq_ok_iff (w : Workers) (deriver : KeyDeriver) (c : Container) (data : Bytes) :
    c.decryptBy w deriver = .ok data ↔
      (∀ (place : Nat) (chunk : Chunk), c.chunks[place]? = some chunk → chunk.index = place) ∧
      Merkle.root c.chunkHashes = c.merkleRoot ∧
      ∃ (master : Bytes) (key : CipherKey) (pieces : List Bytes),
        deriver.source.master = .ok (some master) ∧ master.length = 32 ∧
        c.fileId.isScalar = true ∧
        key.bytes = Hkdf.derive master (Utf8.encodeAll c.fileId) deriver.info ∧
        List.Forall₂ (Opens key) c.chunks pieces ∧ data = pieces.flatten ∧
        (data.length : Int) = c.plainSize ∧ Sha256.hex data = c.plainHash := by
  rw [decryptBy_eq, decrypt_eq_ok_iff, placed_iff]
  simp only [KeyDeriver.fileKey_eq_ok_iff]
  constructor
  · rintro ⟨placed, root, key, pieces, ⟨master, hmaster, size, scalar, hkey⟩, rest⟩
    exact ⟨placed, root, master, key, pieces, hmaster, size, scalar, hkey, rest⟩
  · rintro ⟨placed, root, master, key, pieces, hmaster, size, scalar, hkey, rest⟩
    exact ⟨placed, root, key, pieces, ⟨master, hmaster, size, scalar, hkey⟩, rest⟩

namespace IsScalar

theorem decryptChunk_eq_ok_iff (h : c.IsScalar) : c.decryptChunk deriver place = .ok piece ↔
    Merkle.root c.chunkHashes = c.merkleRoot ∧
      ∃ key chunk, deriver.fileKey c.fileId = .ok key ∧ c.chunks[place]? = some chunk ∧
        Opens key chunk piece := by
  rcases found : c.chunks[place]? with _ | chunk
  · have inside : ¬ (place : Int) < 0 := by omega
    rw [decryptChunk, if_neg inside, Int.toNat_natCast, found]
    simp
  rw [h.decryptChunk_eq deriver found]
  split
  · next same => simp [same, bind_eq_ok, openChunk_eq_ok_iff]
  · next differ => simp [differ, violated]

theorem decryptChunk_uncovered_iff (h : c.IsScalar) (found : c.chunks[place]? = some chunk) :
    c.decryptChunk deriver place = .error (.integrity (.chunkUncovered place)) ↔
      Merkle.root c.chunkHashes ≠ c.merkleRoot := by
  rw [h.decryptChunk_eq deriver found]
  apply FailsWith.ite_eq_error_iff
  apply ((deriver.fileKey_fails h.fileId).mono ?_).bind
  · intro key _
    apply (openChunk_fails key (h.hash chunk (List.mem_of_getElem? found))).mono
    rintro failure (⟨fault, rfl⟩ | rfl) <;> exact nofun
  · rintro failure ⟨fault, rfl⟩
    exact nofun

theorem decrypt_mismatch_iff (h : c.IsScalar) (placed : firstMoved? 0 c.chunks = none) :
    c.decrypt deriver = .error (.integrity .rootMismatch) ↔
      Merkle.root c.chunkHashes ≠ c.merkleRoot := by
  rw [h.decrypt_eq, placed]
  apply FailsWith.ite_eq_error_iff
  apply ((deriver.fileKey_fails h.fileId).mono ?_).bind
  · intro key _
    exact (h.openWhole_fails key).mono fun failure ↦ And.left
  · rintro failure ⟨fault, rfl⟩
    exact nofun

end IsScalar

/-- A file and its pieces are under the same checks: the path of any one chunk reaches the root just
if all of them together do, and the file is given out just if all its pieces are and make up a file
of its size and hash. -/
theorem decryptBy_eq_ok_iff_decryptChunk (w : Workers) (deriver : KeyDeriver) (c : Container)
    (filled : c.chunks ≠ [])
    (placed : ∀ (place : Nat) (chunk : Chunk), c.chunks[place]? = some chunk → chunk.index = place)
    (scalar : c.IsScalar) :
    (∀ place < c.chunks.length,
      (c.decryptChunk deriver (place : Nat) = .error (.integrity (.chunkUncovered place)) ↔
        c.decryptBy w deriver = .error (.integrity .rootMismatch))) ∧
    ∀ data, c.decryptBy w deriver = .ok data ↔
      ∃ pieces : List Bytes, pieces.length = c.chunks.length ∧
        (∀ (place : Nat) (piece : Bytes), pieces[place]? = some piece →
          c.decryptChunk deriver place = .ok piece) ∧
        data = pieces.flatten ∧ (data.length : Int) = c.plainSize ∧
        Sha256.hex data = c.plainHash := by
  have inOrder := placed_iff.2 placed
  rw [decryptBy_eq]
  constructor
  -- Either failure says that the root is not that of the chunks.
  · intro place hp
    rw [scalar.decrypt_mismatch_iff inOrder,
      scalar.decryptChunk_uncovered_iff (List.getElem?_eq_getElem hp)]
  intro data
  rw [decrypt_eq_ok_iff]
  simp only [scalar.decryptChunk_eq_ok_iff]
  constructor
  · rintro ⟨-, root, key, pieces, hkey, opens, whole⟩
    obtain ⟨count, each⟩ := forall₂_iff_getElem?.1 opens
    refine ⟨pieces, count.symm, fun place piece hp ↦ ⟨root, key, ?_⟩, whole⟩
    obtain ⟨chunk, hc, hopens⟩ := each place piece hp
    exact ⟨chunk, hkey, hc, hopens⟩
  · rintro ⟨pieces, count, opens, whole⟩
    -- There is a first piece, and its key is that of all the others.
    have first : 0 < pieces.length := count ▸ List.length_pos_iff.2 filled
    obtain ⟨root, key, -, hkey, -⟩ := opens 0 pieces[0] (List.getElem?_eq_getElem first)
    refine ⟨inOrder, root, key, pieces, hkey, ?_, whole⟩
    refine forall₂_iff_getElem?.2 ⟨count.symm, fun place piece hp ↦ ?_⟩
    obtain ⟨-, key', chunk, hkey', hc, hopens⟩ := opens place piece hp
    obtain rfl := Except.ok.inj (hkey.symm.trans hkey')
    exact ⟨chunk, hc, hopens⟩

theorem decryptBy_eq_ok_iff_decryptChunk_backward :
    ∃ (e : Encryptor) (c : Container) (left : NonceSupply) (pieces : List Bytes),
      e.encryptBy .backward [7, 8, 9] "f" (.counting 0 true) .epoch = .ok (c, left) ∧
      c.decryptBy .backward e.deriver = .ok [7, 8, 9] ∧ pieces.length = c.chunks.length ∧
      (∀ (place : Nat) (piece : Bytes), pieces[place]? = some piece →
        c.decryptChunk e.deriver place = .ok piece) ∧ [7, 8, 9] = pieces.flatten := by
  have scalar : Text.isScalar "f" = true := by decide
  obtain ⟨key, chunks, left, hkey, hs, encrypts⟩ := Encryptor.exists_encryptBy_least [7, 8, 9]
    (by decide)
  have opened := decryptBy_eq .backward Encryptor.least.deriver
    (Encryptor.least.assemble [7, 8, 9] "f" chunks .epoch)
  rw [decrypt_assemble hkey hs] at opened
  have count : chunks.length = 2 := hs.opens.length_eq
  obtain ⟨-, whole⟩ := decryptBy_eq_ok_iff_decryptChunk .backward Encryptor.least.deriver
    (Encryptor.least.assemble [7, 8, 9] "f" chunks .epoch)
    (List.ne_nil_of_length_eq_add_one count) (placed_iff.1 hs.placed)
    (isScalar_assemble .epoch scalar hs)
  obtain ⟨pieces, count, each, flat, -⟩ := (whole _).1 opened
  exact ⟨.least, _, left, pieces, encrypts, opened, count, each, flat⟩

end Container

end ShardVault
